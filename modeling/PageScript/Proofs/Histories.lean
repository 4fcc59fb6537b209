import PageScript.Proofs.CheckedOffsets

/-!
# Histories of a cursor

The invariant of a cursor, that its mark is not ahead of it, does not survive everything that
can be asked of it.  Moving the mark keeps the width of the last reading, so undoing that
reading leads behind the mark.  What decides is `MarkedSince`: whether the mark was moved
after the last reading.  While it was not, the last reading lies between mark and cursor and
can be undone.

Everything else that a cursor promises holds in either case, on any bytes.
-/

namespace PageScript.Cursor

/-- The cursor behind a history, unless an operation is refused. -/
def run (page : Bytes) (history : List Operation) : Except Fault Cursor :=
  history.foldlM (fun cursor operation => (operation.perform cursor).map (·.2)) (ofBytes page)

/-- Every operation fits the cursor it is asked of. -/
def AllFit (page : Bytes) (history : List Operation) : Prop :=
  ∀ earlier operation later cursor, history = earlier ++ operation :: later →
    run page earlier = .ok cursor → operation.Fits cursor

/-- The mark was moved, and nothing was read after that. -/
def MarkedSince (history : List Operation) : Prop :=
  ∃ before mark since, history = before ++ mark :: since ∧ mark.role = .marks ∧
    ∀ operation ∈ since, operation.role ≠ .reads

/-- A reading is undone over a mark that was moved after it. -/
def BacksOverMark (history : List Operation) : Prop :=
  ∃ earlier later, history = earlier ++ .backup :: later ∧ MarkedSince earlier

/-- The mark was never ahead of the cursor. -/
def InOrder (page : Bytes) (history : List Operation) : Prop :=
  ∀ earlier cursor, earlier <+: history → run page earlier = .ok cursor →
    cursor.start ≤ cursor.offset

variable {page : Bytes} {history : List Operation} {operation : Operation}
  {before after cursor : Cursor} {start : Nat}

/-! ### One more operation -/

theorem run_concat (page : Bytes) (history : List Operation) (operation : Operation) :
    run page (history ++ [operation]) =
      (run page history).bind fun cursor => (operation.perform cursor).map (·.2) := by
  rw [run, List.foldlM_append]
  refine congrArg (Except.bind _) (funext fun cursor => ?_)
  exact bind_pure _

theorem exists_of_run_concat (done : run page (history ++ [operation]) = .ok after) :
    ∃ before answer, run page history = .ok before ∧
      operation.perform before = .ok (answer, after) := by
  rw [run_concat] at done
  cases ran : run page history with
  | error fault => simp [ran, Except.bind] at done
  | ok before =>
      cases performed : operation.perform before with
      | error fault => simp [ran, performed, Except.bind, Except.map] at done
      | ok pair =>
          simp only [ran, performed, Except.bind, Except.map, Except.ok.injEq] at done
          cases done
          exact ⟨before, pair.1, rfl, performed⟩

theorem AllFit.of_concat (fit : AllFit page (history ++ [operation])) : AllFit page history := by
  intro earlier other later cursor split
  exact fit earlier other (later ++ [operation]) cursor (by simp [split])

theorem AllFit.last (fit : AllFit page (history ++ [operation]))
    (ran : run page history = .ok cursor) : operation.Fits cursor :=
  fit history operation [] cursor rfl ran

theorem InOrder.of_concat (ordered : InOrder page (history ++ [operation])) :
    InOrder page history :=
  fun earlier cursor front =>
    ordered earlier cursor (front.trans (List.prefix_append history [operation]))

theorem markedSince_concat_of_marks (history : List Operation) (marks : operation.role = .marks) :
    MarkedSince (history ++ [operation]) :=
  ⟨history, operation, [], rfl, marks, fun _ member => absurd member List.not_mem_nil⟩

theorem MarkedSince.concat (marked : MarkedSince history) (kept : operation.role ≠ .reads) :
    MarkedSince (history ++ [operation]) := by
  obtain ⟨before, mark, since, rfl, marks, none⟩ := marked
  refine ⟨before, mark, since ++ [operation], by simp, marks, ?_⟩
  intro other member
  rw [List.mem_append, List.mem_singleton] at member
  obtain member | rfl := member
  · exact none other member
  · exact kept

/-- A cursor that was run is placed in its page. -/
theorem isPlaced_of_run (fit : AllFit page history) (ran : run page history = .ok cursor) :
    IsPlaced page cursor := by
  induction history using List.reverseRecOn generalizing cursor with
  | nil =>
      cases ran
      exact ofBytes_isPlaced page
  | append_singleton history operation ih =>
      obtain ⟨before, answer, ran, done⟩ := exists_of_run_concat ran
      exact (perform_effect (ih fit.of_concat ran) (fit.last ran) done).2

/-! ### Mark and cursor -/

/-- The mark is not ahead of the cursor, and not ahead of a last reading that came after
it. -/
structure InFront (history : List Operation) (cursor : Cursor) : Prop where
  ordered : cursor.start ≤ cursor.offset
  reading : ¬ MarkedSince history → cursor.start + cursor.width ≤ cursor.offset

/-- Only undoing a reading from before the mark was moved leads behind the mark. -/
theorem InFront.ordered_after (inFront : InFront history before)
    (effect : operation.role.Effect before after)
    (careful : operation = .backup → ¬ MarkedSince history) : after.start ≤ after.offset := by
  have ordered := inFront.ordered
  cases role : operation.role with
  | reads =>
      rw [role] at effect
      obtain ⟨start, onward⟩ := effect
      omega
  | undoes =>
      have reading := inFront.reading (careful (Operation.eq_backup_of_role role))
      rw [role] at effect
      obtain ⟨start, offset, -⟩ := effect
      omega
  | marks =>
      rw [role] at effect
      obtain ⟨-, start, offset⟩ := effect
      omega
  | looks =>
      rw [role] at effect
      cases effect
      exact ordered

/-- What is behind a last reading stays there until the next one. -/
theorem InFront.concat (inFront : InFront history before)
    (effect : operation.role.Effect before after) (ordered : after.start ≤ after.offset) :
    InFront (history ++ [operation]) after := by
  refine ⟨ordered, fun unmarked => ?_⟩
  have earlier := inFront.ordered
  cases role : operation.role with
  | reads =>
      rw [role] at effect
      obtain ⟨start, onward⟩ := effect
      omega
  | undoes =>
      rw [role] at effect
      obtain ⟨-, -, width⟩ := effect
      omega
  | marks => exact absurd (markedSince_concat_of_marks history role) unmarked
  | looks =>
      have unmarkedBefore : ¬ MarkedSince history := fun marked =>
        unmarked (marked.concat (by simp [role]))
      rw [role] at effect
      cases effect
      exact inFront.reading unmarkedBefore

theorem inFront_of_inOrder (fit : AllFit page history) (ordered : InOrder page history)
    (ran : run page history = .ok cursor) : InFront history cursor := by
  have last := ordered history cursor (List.prefix_refl history) ran
  induction history using List.reverseRecOn generalizing cursor with
  | nil =>
      cases ran
      exact ⟨last, fun _ => Nat.le_refl _⟩
  | append_singleton history operation ih =>
      obtain ⟨before, answer, ran, done⟩ := exists_of_run_concat ran
      have reached := ordered history before (List.prefix_append history [operation]) ran
      have inFront := ih fit.of_concat ordered.of_concat ran reached
      exact inFront.concat
        (perform_effect (isPlaced_of_run fit.of_concat ran) (fit.last ran) done).1 last

/-- A history that never undoes a reading over the mark is not refused. -/
theorem exists_run_of_careful (fit : AllFit page history) (careful : ¬ BacksOverMark history) :
    ∃ cursor, run page history = .ok cursor ∧ InOrder page history := by
  induction history using List.reverseRecOn with
  | nil =>
      refine ⟨ofBytes page, rfl, fun earlier cursor front ran => ?_⟩
      cases List.prefix_nil.mp front
      cases ran
      exact Nat.le_refl _
  | append_singleton history operation ih =>
      have carefulBefore : ¬ BacksOverMark history := by
        rintro ⟨earlier, later, rfl, marked⟩
        exact careful ⟨earlier, later ++ [operation], by simp, marked⟩
      obtain ⟨before, ran, ordered⟩ := ih fit.of_concat carefulBefore
      have isPlaced := isPlaced_of_run fit.of_concat ran
      have inFront := inFront_of_inOrder fit.of_concat ordered ran
      cases done : operation.perform before with
      | error fault =>
          have behind := (perform_eq_error_iff isPlaced).mp done
          exact absurd behind.2.1 (Nat.not_lt.mpr inFront.ordered)
      | ok pair =>
          obtain ⟨answer, after⟩ := pair
          have carefulHere : operation = .backup → ¬ MarkedSince history := by
            rintro rfl marked
            exact careful ⟨history, [], rfl, marked⟩
          have last := inFront.ordered_after
            (perform_effect isPlaced (fit.last ran) done).1 carefulHere
          have reached : run page (history ++ [operation]) = .ok after := by
            rw [run_concat, ran]
            exact congrArg (Except.map _) done
          refine ⟨after, reached, fun earlier cursor front ranEarlier => ?_⟩
          obtain rfl | front := List.prefix_concat_iff.mp front
          · cases reached.symm.trans ranEarlier
            exact last
          · exact ordered earlier cursor front ranEarlier

/-! ### What a cursor promises -/

/-- What holds of a cursor whatever was asked of it. -/
structure Kept (page : Bytes) (cursor : Cursor) : Prop where
  source_eq : cursor.source = page
  width_le : cursor.width ≤ cursor.offset
  offset_le : cursor.offset ≤ page.length
  start_le : cursor.start ≤ page.length
  located : ∀ stop file,
    Span.Located page ⟨cursor.start, stop, cursor.line, cursor.column, file⟩

theorem column_placed (offset width : Nat) (marked : start ≤ page.length) :
    (placed page start offset width).column =
      UInt32.ofNat (Bytes.sinceBreak (page.take start).reverse + 1) := by
  have few := Bytes.sinceBreak_reverse_le (page.take start)
  rw [List.length_take_of_le marked] at few
  exact congrArg (fun distance => UInt32.ofNat (distance + 1)) (Nat.sub_sub_self few)

theorem IsPlaced.kept (isPlaced : IsPlaced page cursor) (short : page.length + 1 < UInt32.size) :
    Kept page cursor := by
  cases isPlaced with
  | @intro start offset width marked inside narrow =>
      refine ⟨(standing_standsIn inside).source_eq, narrow, inside, marked, ?_⟩
      intro stop file
      have located := Span.after_located file (stop - start) (page.take start) (page.drop start)
        (by rw [List.length_take_of_le marked]; omega)
      rw [List.take_append_drop, Span.after, List.count_reverse, List.length_reverse,
        List.length_take_of_le marked, ← column_placed offset width marked] at located
      obtain ⟨line, column, table⟩ := located
      exact ⟨line, column, table⟩

/-- What holds of an operation that is asked of a cursor with a history. -/
structure Guarded (page : Bytes) (history : List Operation) (cursor : Cursor)
    (operation : Operation) : Prop where
  checked : cursor.offsets.perform? page operation =
    (operation.perform cursor).toOption.map fun (answer, after) => (answer, after.offsets)
  refused_iff : ∀ fault, operation.perform cursor = .error fault ↔
    operation.needsPending ∧ cursor.offset < cursor.start ∧ fault = .behindMark
  start_le : ∀ answer after, operation.perform cursor = .ok (answer, after) →
    cursor.start ≤ after.start
  behind : ∀ answer after, operation.perform cursor = .ok (answer, after) →
    InOrder page history → after.offset < after.start →
    operation = .backup ∧ MarkedSince history

theorem Operation.Role.Effect.start_le {role : Operation.Role} (effect : role.Effect before after) :
    before.start ≤ after.start := by
  cases role with
  | reads => exact Nat.le_of_eq effect.1.symm
  | undoes => exact Nat.le_of_eq effect.1.symm
  | marks => exact Nat.le_trans effect.1 (Nat.le_of_eq effect.2.1.symm)
  | looks => exact Nat.le_of_eq (congrArg Cursor.start effect.symm)

theorem guarded_of_run (short : page.length + 1 < UInt32.size) (fit : AllFit page history)
    (ran : run page history = .ok cursor) (fits : operation.Fits cursor) :
    Guarded page history cursor operation := by
  have isPlaced := isPlaced_of_run fit ran
  constructor
  · exact perform?_offsets isPlaced fits short
  · exact fun fault => perform_eq_error_iff isPlaced
  · exact fun answer after done => (perform_effect isPlaced fits done).1.start_le
  · intro answer after done ordered behind
    have inFront := inFront_of_inOrder fit ordered ran
    by_contra careless
    have careful : operation = .backup → ¬ MarkedSince history :=
      fun backs marked => careless ⟨backs, marked⟩
    have last := inFront.ordered_after (perform_effect isPlaced fits done).1 careful
    exact absurd behind (Nat.not_lt.mpr last)

/-- On any page whose lines a word can count, a cursor keeps its promises through any history,
and an operation is refused only if it asks for the pending text behind the mark.  A cursor
comes to stand behind its mark only by undoing a reading from before the mark was moved, and
a history that never does so is carried out. -/
theorem run_kept (page : Bytes) (short : page.length + 1 < UInt32.size)
    (history : List Operation) (fit : AllFit page history) :
    (∀ cursor, run page history = .ok cursor →
      Kept page cursor ∧
        ∀ operation, operation.Fits cursor → Guarded page history cursor operation) ∧
      (¬ BacksOverMark history →
        ∃ cursor, run page history = .ok cursor ∧ InOrder page history) := by
  constructor
  · intro cursor ran
    exact ⟨(isPlaced_of_run fit ran).kept short, fun operation => guarded_of_run short fit ran⟩
  · exact exists_run_of_careful fit

/-- A character is read and dropped, and the reading can then be undone. -/
theorem run_kept_dropped :
    let page : Bytes := [0xC3, 0xA9]
    let history : List Operation := [.next, .ignore]
    (∃ cursor after, run page history = .ok cursor ∧
      Operation.perform .backup cursor = .ok (.nothing, after) ∧ after.offset < after.start) ∧
    (∀ cursor, run page history = .ok cursor →
      Kept page cursor ∧
        ∀ operation, operation.Fits cursor → Guarded page history cursor operation) ∧
      (¬ BacksOverMark history →
        ∃ cursor, run page history = .ok cursor ∧ InOrder page history) := by
  intro page history
  have fit : AllFit page history := by
    intro earlier operation later cursor split _
    have member : operation ∈ history := by simp [split]
    simp only [history, List.mem_cons, List.not_mem_nil, or_false] at member
    obtain rfl | rfl := member <;> trivial
  exact ⟨⟨_, _, rfl, rfl, by decide⟩, run_kept page (by decide) history fit⟩

end PageScript.Cursor
