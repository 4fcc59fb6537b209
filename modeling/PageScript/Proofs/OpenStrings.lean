import PageScript.Proofs.Regions
import PageScript.Proofs.Reports
import PageScript.Proofs.SearchedEnds

/-!
# The string in which a page ends

A page may end inside a string.  The automaton of regions says so from the tokens alone, and
`Region.openString?` remembers which token opened that string.  The scan has warned about a
string exactly then, so this token is the one that the literals of the page report.
-/

namespace PageScript

namespace Region

/-- Whether a region is inside a string: in a body, or behind a quote that is not closed. -/
def isString : Region → Bool
  | .body _ _ | .halted => true
  | _ => false

/-- The token that opened the string in which tokens end, if they end in one.  `opened` is the
opener of the string that the region is in. -/
def openString? (region : Region) (opened : Option Token) : List Token → Option Token
  | [] => opened
  | token :: rest =>
      match region.step token with
      | none => none
      | some next =>
          next.openString? (if next.isString then opened.or (some token) else none) rest

variable {region next last : Region} {opened : Option Token} {token opener : Token}
  {front back tokens parts : List Token}

theorem openString?_cons_of_step (stepped : region.step token = some next) (opened : Option Token)
    (rest : List Token) :
    region.openString? opened (token :: rest) =
      next.openString? (if next.isString then opened.or (some token) else none) rest := by
  rw [openString?, stepped]

/-- A string is open at the end if the end is inside one. -/
theorem isSome_openString? (known : opened.isSome = region.isString)
    (ran : region.run tokens = some last) :
    (region.openString? opened tokens).isSome = last.isString := by
  induction tokens generalizing region opened with
  | nil =>
      cases ran
      exact known
  | cons token tokens ih =>
      obtain ⟨next, stepped, onward⟩ := Option.bind_eq_some_iff.mp ran
      rw [openString?_cons_of_step stepped]
      refine ih ?_ onward
      cases next.isString <;> simp

end Region

namespace Mode

variable {ahead : Bytes} {cut : Cut} {last : Region}

theorem IsTextCut.isString_eq (shape : IsTextCut ahead cut) (stops : cut.next = none)
    (file : FileId) (behind : Bytes)
    (ran : Region.text.run (Lexeme.place file behind ahead cut.lexemes) = some last) :
    last.isString = cut.unterminated.isSome := by
  cases shape with
  | tagged => contradiction
  | untagged =>
      rw [Lexeme.html] at ran
      split at ran <;> cases ran <;> rfl

theorem IsScriptCut.isString_eq (shape : IsScriptCut ahead cut) (stops : cut.next = none)
    (file : FileId) (behind : Bytes)
    (ran : Region.script.run (Lexeme.place file behind ahead cut.lexemes) = some last) :
    last.isString = cut.unterminated.isSome := by
  cases shape with
  | finished => cases ran; rfl
  | cutOffQuote => cases ran; rfl
  | _ => contradiction

theorem IsBodyCut.isString_eq {enclosure : Enclosure} (shape : IsBodyCut enclosure ahead cut)
    (stops : cut.next = none) (file : FileId) (behind : Bytes)
    (ran : (Region.body enclosure.delimiter false).run
      (Lexeme.place file behind ahead cut.lexemes) = some last) :
    last.isString = cut.unterminated.isSome := by
  cases shape with
  | closed => contradiction
  | cutOff shape =>
      cases shape with
      | cutOff shape =>
          obtain ⟨afterText, same⟩ := shape.run file behind enclosure.delimiter
          cases same.symm.trans ran
          rfl

end Mode

/-- Whether a warning is about a comment. -/
def Warning.isComment : Warning → Bool
  | .comment _ _ => true
  | _ => false

namespace Call

variable {call : Call}

/-- A call that stops has led into a string exactly if it warns. -/
theorem isString_of_stop (file : FileId) (stops : call.cut.next = none) {last : Region}
    (ran : call.mode.region.run (call.tokens file) = some last) :
    last.isString = call.cut.unterminated.isSome := by
  obtain ⟨mode, behind, ahead⟩ := call
  cases mode with
  | text => exact (Mode.cutText_isTextCut ahead).isString_eq stops file behind ran
  | script => exact (Mode.cutScript_isScriptCut ahead).isString_eq stops file behind ran
  | body enclosure =>
      exact (Mode.cutBody_isBodyCut enclosure ahead).isString_eq stops file behind ran

/-- A call that another follows warns about comments only, and one that stops about strings
only. -/
theorem isComment_of_warning {warning : Warning} (warns : call.warning? = some warning) :
    warning.isComment = call.cut.next.isSome := by
  obtain ⟨construct, cutOff, rfl⟩ := Option.map_eq_some_iff.mp warns
  rcases Mode.cut_cutOff_cases cutOff with ⟨rfl, comment⟩ | ⟨other, stops⟩
  · have next : call.cut.next = some .script := congrArg Cut.next comment.cut_eq
    rw [next]
    rfl
  · have next : call.cut.next = none := stops
    rw [next]
    cases construct with
    | comment => contradiction
    | _ => rfl

/-- The tokens from a call on end in a string exactly if the scan warns about one. -/
theorem isString_iff (file : FileId) (call : Call) {last : Region}
    (ran : call.mode.region.run (call.tokensOnward file) = some last) :
    last.isString ↔ ∃ warning ∈ call.warningsOnward, ¬ warning.isComment := by
  induction call using onward_induction with
  | stop call stops =>
      rw [tokensOnward_of_stop file stops] at ran
      have same : call.cut.unterminated.isSome = call.warning?.isSome := by simp [warning?]
      rw [warningsOnward_of_stop stops, isString_of_stop file stops ran, same]
      cases warns : call.warning? with
      | none => simp
      | some warning => simp [isComment_of_warning warns, stops]
  | next call mode goesOn ih =>
      have leads := call.tokens_leads file
      rw [goesOn] at leads
      rw [tokensOnward_of_next file goesOn, Region.run_append_of_run leads] at ran
      have here : ∀ warning ∈ call.warning?, warning.isComment := by
        intro warning warns
        rw [isComment_of_warning warns, goesOn]
        rfl
      rw [warningsOnward_of_next goesOn, ih ran]
      constructor
      · rintro ⟨warning, member, other⟩
        exact ⟨warning, List.mem_append_right _ member, other⟩
      · rintro ⟨warning, member, other⟩
        rcases List.mem_append.mp member with ofCall | later
        · exact absurd (here warning (Option.mem_toList.mp ofCall)) other
        · exact ⟨warning, later, other⟩

end Call

namespace Literal

end Literal

end PageScript
