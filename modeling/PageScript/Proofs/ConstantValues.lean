import Mathlib.Logic.Relation
import PageScript.Literal.Expr

/-!
# Constant values

Concatenations stand in concatenations, to any depth, but the value of an expression is
settled by its leaves: what is left of it, in order, when the concatenations are taken
away.  It has a constant value if no leaf is a variable, and the value is then that of its
constants one behind the other.

Where the concatenations stand is therefore of no account.  One inside another can be
replaced by its parts, as often as there is one, until a single concatenation of the leaves
is left; the constant value is the same all the way.
-/

namespace PageScript.Expr

/-- What holds of constants and of variables, and of a concatenation if it holds of all of its
parts, holds of every expression. -/
@[elab_as_elim]
theorem induction {motive : Expr → Prop}
    (literal : ∀ value span, motive (.literal value span))
    (named : ∀ name span, motive (.variable name span))
    (concat : ∀ parts span, (∀ part ∈ parts, motive part) → motive (.concat parts span))
    (expr : Expr) : motive expr := by
  -- The recursor treats lists of parts as a second kind of tree, with a motive of its own.
  refine Expr.rec (motive_2 := fun parts => ∀ part ∈ parts, motive part)
    literal named concat ?_ ?_ expr
  · exact List.forall_mem_nil motive
  · exact fun _ _ first rest => List.forall_mem_cons.mpr ⟨first, rest⟩

/-! ### Expressions inside expressions -/

/-- An expression stands in another one: it is that expression, or it stands in a part of it. -/
inductive Within (inner : Expr) : Expr → Prop where
  | whole : Within inner inner
  | part {part : Expr} {parts : List Expr} {span : Span} (member : part ∈ parts)
      (within : Within inner part) : Within inner (.concat parts span)

/-- One concatenation inside an expression is replaced, in the concatenation that it is a part
of, by its parts.  If it has none it is dropped. -/
inductive Flattens : Expr → Expr → Prop where
  | splice (before parts after : List Expr) (inner span : Span) :
      Flattens (.concat (before ++ .concat parts inner :: after) span)
        (.concat (before ++ parts ++ after) span)
  | inside {part flatter : Expr} (before after : List Expr) (span : Span)
      (flattens : Flattens part flatter) :
      Flattens (.concat (before ++ part :: after) span)
        (.concat (before ++ flatter :: after) span)

/-- Any number of concatenations are replaced, one at a time. -/
abbrev FlattensTo : Expr → Expr → Prop :=
  Relation.ReflTransGen Flattens

/-! ### Leaves -/

mutual

/-- The constants and variables of an expression, from left to right. -/
def leaves : Expr → List Expr
  | .literal value span => [.literal value span]
  | .variable name span => [.variable name span]
  | .concat parts _ => leavesAll parts

/-- The leaves of the parts, one part behind the other. -/
def leavesAll : List Expr → List Expr
  | [] => []
  | part :: rest => leaves part ++ leavesAll rest

end

/-- Whether an expression is a constant or a variable. -/
def isLeaf : Expr → Bool
  | .concat _ _ => false
  | _ => true

/-- The bytes of a constant. -/
def known? : Expr → Option Bytes
  | .literal value _ => some value
  | _ => none

/-- The bytes of every constant in an expression, from left to right. -/
def constants (expr : Expr) : List Bytes :=
  expr.leaves.filterMap known?

variable {expr inner leaf flatter : Expr} {parts : List Expr} {name value : Bytes} {span : Span}

theorem leavesAll_eq_flatMap (parts : List Expr) : leavesAll parts = parts.flatMap leaves := by
  induction parts with
  | nil => rfl
  | cons part rest ih => rw [leavesAll, ih, List.flatMap_cons]

@[simp] theorem leaves_literal : (literal value span).leaves = [.literal value span] := rfl

@[simp] theorem leaves_variable : (Expr.variable name span).leaves = [.variable name span] := rfl

@[simp] theorem leaves_concat : (concat parts span).leaves = parts.flatMap leaves :=
  leavesAll_eq_flatMap parts

theorem leaves_of_isLeaf (isLeaf : leaf.isLeaf) : leaf.leaves = [leaf] := by
  cases leaf with
  | literal => rfl
  | «variable» => rfl
  | concat => contradiction

theorem of_mem_leaves (member : leaf ∈ expr.leaves) : leaf.isLeaf ∧ leaf.Within expr := by
  induction expr using induction with
  | literal value span =>
      obtain rfl := List.mem_singleton.mp member
      exact ⟨rfl, .whole⟩
  | named name span =>
      obtain rfl := List.mem_singleton.mp member
      exact ⟨rfl, .whole⟩
  | concat parts span ih =>
      rw [leaves_concat, List.mem_flatMap] at member
      obtain ⟨part, isPart, member⟩ := member
      obtain ⟨isLeaf, within⟩ := ih part isPart member
      exact ⟨isLeaf, .part isPart within⟩

theorem Within.leaves_subset (within : inner.Within expr) : inner.leaves ⊆ expr.leaves := by
  induction within with
  | whole => exact List.Subset.refl _
  | part isPart _ ih =>
      rw [leaves_concat]
      exact fun _ member => List.mem_flatMap.mpr ⟨_, isPart, ih member⟩

/-- The leaves are the constants and variables that stand anywhere in the expression. -/
theorem mem_leaves_iff : leaf ∈ expr.leaves ↔ leaf.isLeaf ∧ leaf.Within expr := by
  refine ⟨of_mem_leaves, fun ⟨isLeaf, within⟩ => within.leaves_subset ?_⟩
  rw [leaves_of_isLeaf isLeaf]
  exact List.mem_singleton_self leaf

/-! ### Flattening -/

/-- A concatenation without parts is dropped. -/
theorem Flattens.drop (before after : List Expr) (inner span : Span) :
    Flattens (.concat (before ++ .concat [] inner :: after) span)
      (.concat (before ++ after) span) := by
  simpa using Flattens.splice before [] after inner span

/-- Replacing a concatenation by its parts leaves the leaves as they are. -/
theorem Flattens.leaves_eq (flattens : Flattens expr flatter) : flatter.leaves = expr.leaves := by
  induction flattens with
  | splice before parts after inner span => simp
  | inside before after span _ ih => simp [ih]

theorem FlattensTo.leaves_eq (flattens : FlattensTo expr flatter) :
    flatter.leaves = expr.leaves := by
  induction flattens with
  | refl => rfl
  | tail _ step ih => exact step.leaves_eq.trans ih

/-- Parts that can be replaced by their leaves between any others can be so together. -/
theorem flattensTo_flatMap_leaves
    (each : ∀ part ∈ parts, ∀ before after, FlattensTo (.concat (before ++ part :: after) span)
      (.concat (before ++ part.leaves ++ after) span)) (before after : List Expr) :
    FlattensTo (.concat (before ++ parts ++ after) span)
      (.concat (before ++ parts.flatMap leaves ++ after) span) := by
  induction parts generalizing before with
  | nil => exact .refl
  | cons part rest ih =>
      obtain ⟨first, later⟩ := List.forall_mem_cons.mp each
      have here := first before (rest ++ after)
      have behind := ih later (before ++ part.leaves)
      simp only [List.append_assoc, List.cons_append, List.flatMap_cons] at here behind ⊢
      exact here.trans behind

/-- Between any other parts, an expression can be replaced by its leaves. -/
theorem flattensTo_leaves (expr : Expr) (before after : List Expr) :
    FlattensTo (.concat (before ++ expr :: after) span)
      (.concat (before ++ expr.leaves ++ after) span) := by
  induction expr using induction generalizing before after with
  | literal value span => simpa using Relation.ReflTransGen.refl
  | named name span => simpa using Relation.ReflTransGen.refl
  | concat parts inner ih =>
      rw [leaves_concat]
      exact .head (.splice before parts after inner _) (flattensTo_flatMap_leaves ih before after)

/-- Every concatenation comes down to the concatenation of its leaves. -/
theorem concat_flattensTo (parts : List Expr) (span : Span) :
    FlattensTo (.concat parts span) (.concat (parts.flatMap leaves) span) := by
  simpa using flattensTo_flatMap_leaves (fun part _ => flattensTo_leaves part) [] []

/-! ### Values -/

theorem constantAll?_cons (part : Expr) (rest : List Expr) :
    constantAll? (part :: rest) =
      part.constant?.bind fun value => (constantAll? rest).map (value ++ ·) := by
  rw [constantAll?]
  cases part.constant? <;> rfl

/-- The value of parts is that of the first ones with that of the others behind it. -/
theorem constantAll?_append (front back : List Expr) :
    constantAll? (front ++ back) =
      (constantAll? front).bind fun value => (constantAll? back).map (value ++ ·) := by
  induction front with
  | nil => simp [constantAll?]
  | cons part rest ih =>
      rw [List.cons_append, constantAll?_cons, constantAll?_cons, ih]
      cases part.constant? <;> cases constantAll? rest <;> cases constantAll? back <;> simp

/-- An expression has the value of its leaves. -/
theorem constantAll?_leaves (expr : Expr) : constantAll? expr.leaves = expr.constant? := by
  induction expr using induction with
  | literal value span => simp [constantAll?, constant?]
  | named name span => simp [constantAll?, constant?]
  | concat parts span ih =>
      rw [leaves_concat, constant?]
      induction parts with
      | nil => rfl
      | cons part rest ihRest =>
          obtain ⟨first, later⟩ := List.forall_mem_cons.mp ih
          rw [List.flatMap_cons, constantAll?_append, first, ihRest later, constantAll?_cons]

theorem constant?_eq_of_leaves_eq (same : flatter.leaves = expr.leaves) :
    flatter.constant? = expr.constant? := by
  rw [← constantAll?_leaves, same, constantAll?_leaves]

/-- Constants and variables have a value together if no variable is among them. -/
theorem constantAll?_eq_some_iff (isLeaf : ∀ part ∈ parts, part.isLeaf) :
    constantAll? parts = some value ↔
      (∀ name span, .variable name span ∉ parts) ∧
        value = (parts.filterMap known?).flatten := by
  induction parts generalizing value with
  | nil => simp [constantAll?, eq_comm]
  | cons part rest ih =>
      obtain ⟨first, later⟩ := List.forall_mem_cons.mp isLeaf
      rw [constantAll?_cons]
      cases part with
      | literal bytes span =>
          rw [constant?, Option.bind_some, Option.map_eq_some_iff]
          constructor
          · rintro ⟨others, known, rfl⟩
            obtain ⟨allKnown, rfl⟩ := (ih later).mp known
            simpa [known?] using allKnown
          · rintro ⟨allKnown, rfl⟩
            have laterKnown : ∀ name span, .variable name span ∉ rest := fun name span member =>
              allKnown name span (List.mem_cons_of_mem _ member)
            exact ⟨_, (ih later).mpr ⟨laterKnown, rfl⟩, rfl⟩
      | «variable» name span =>
          rw [constant?, Option.bind_none]
          constructor
          · exact nofun
          · exact fun ⟨allKnown, _⟩ => absurd List.mem_cons_self (allKnown name span)
      | concat => contradiction

/-- An expression has a value if no variable stands in it, and the value is that of its
constants. -/
theorem constant?_eq_some_iff :
    expr.constant? = some value ↔
      (∀ name span, ¬(Expr.variable name span).Within expr) ∧
        value = expr.constants.flatten := by
  rw [← constantAll?_leaves, constantAll?_eq_some_iff fun _ member => (of_mem_leaves member).1]
  simp [mem_leaves_iff, isLeaf, constants]

theorem constant?_isSome_iff :
    expr.constant?.isSome ↔ ∀ name span, ¬(Expr.variable name span).Within expr := by
  simp [Option.isSome_iff_exists, constant?_eq_some_iff]

/-- An expression has a constant value exactly if no variable stands anywhere in it.  The value
is that of its constants from left to right, however they are grouped into concatenations. -/
theorem constant?_joinsConstants (expr : Expr) :
    (expr.constant?.isSome ↔ ∀ name span, ¬(Expr.variable name span).Within expr) ∧
      (∀ value, expr.constant? = some value → value = expr.constants.flatten) ∧
      ∀ flatter, FlattensTo expr flatter → flatter.constant? = expr.constant? :=
  ⟨constant?_isSome_iff, fun _ known => (constant?_eq_some_iff.mp known).2,
    fun _ flattens => constant?_eq_of_leaves_eq flattens.leaves_eq⟩

/-- A constant two levels down, behind a concatenation of nothing. -/
theorem constant?_joinsConstants_nested :
    let known (text : String) : Expr := .literal (Bytes.ascii text) {}
    let nested : Expr :=
      .concat [known "a", .concat [.concat [] {}, .concat [known "b"] {}] {}, known "c"] {}
    let flat : Expr := .concat [known "a", known "b", known "c"] {}
    FlattensTo nested flat ∧ nested.constant? = some (Bytes.ascii "abc") ∧
      nested.constants.flatten = Bytes.ascii "abc" ∧ flat.constant? = nested.constant? ∧
      ∀ name span, ¬(Expr.variable name span).Within nested := by
  intro known nested flat
  have dropped : Flattens nested (.concat [known "a", .concat [.concat [known "b"] {}] {},
      known "c"] {}) :=
    .inside [known "a"] [known "c"] {} (.drop [] [.concat [known "b"] {}] {} {})
  have flattens : FlattensTo nested flat := .head dropped (concat_flattensTo _ _)
  have value : nested.constant? = some (Bytes.ascii "abc") := by decide
  obtain ⟨some_iff, joined, kept⟩ := constant?_joinsConstants nested
  exact ⟨flattens, value, (joined _ value).symm, kept flat flattens,
    some_iff.mp (by rw [value]; rfl)⟩

end PageScript.Expr
