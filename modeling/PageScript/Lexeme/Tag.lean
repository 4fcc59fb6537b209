import PageScript.Lexeme

/-!
# Tags

A page is text up to its first open tag.  The short tag that prints a value needs
nothing after it.  The long tag, in any case, needs one whitespace character or
the end of the page, and takes that character with it.
-/

namespace PageScript.Lexeme

/-- The short tag, which prints a value. -/
def echoTagText : Bytes :=
  Bytes.ascii "<?="

/-- The long tag in lower case. -/
def openTagText : Bytes :=
  Bytes.ascii "<?php"

/-- The open tag at the very front. -/
def openTag? (bytes : Bytes) : Option Lexeme :=
  if echoTagText.isPrefixOf bytes then
    some ⟨.echoTag, 3⟩
  else if (bytes.take 5).map Byte.toLower = openTagText then
    match bytes.drop 5 with
    | [] => some ⟨.openTag, 5⟩
    | following :: rest =>
        if following = Byte.carriageReturn && Bytes.startsWhere (· == Byte.lineFeed) rest then
          some ⟨.openTag, 7⟩
        else if Byte.isSpace following then
          some ⟨.openTag, 6⟩
        else
          none
  else
    none

/-- The two bytes that every open tag begins with. -/
def tagOpener : Bytes :=
  [Byte.less, Byte.question]

/-- Behind an opener that is found the search goes on inside the page. -/
theorem behind_tagOpener_le {bytes : Bytes} {start skipped : Nat}
    (found : Bytes.offsetOf? tagOpener (bytes.drop start) = some skipped) :
    start + skipped + 2 ≤ bytes.length := by
  have inside := Bytes.offsetOf?_add_length_le found
  simp only [tagOpener, List.length_cons, List.length_nil, List.length_drop] at inside
  omega

/-- The first open tag at or behind an offset, with the offset at which it stands.  The two
bytes that open a tag are searched for.  If they open none, the search goes on behind
them. -/
def firstTag? (bytes : Bytes) (start : Nat) : Option (Nat × Lexeme) :=
  match _found : Bytes.offsetOf? tagOpener (bytes.drop start) with
  | none => none
  | some skipped =>
      match openTag? (bytes.drop (start + skipped)) with
      | some tag => some (start + skipped, tag)
      | none => firstTag? bytes (start + skipped + 2)
  termination_by bytes.length - start
  decreasing_by
    have inside := behind_tagOpener_le _found
    omega

/-- One turn of the search. -/
theorem firstTag?_eq (bytes : Bytes) (start : Nat) :
    firstTag? bytes start =
      (Bytes.offsetOf? tagOpener (bytes.drop start)).bind fun skipped =>
        match openTag? (bytes.drop (start + skipped)) with
        | some tag => some (start + skipped, tag)
        | none => firstTag? bytes (start + skipped + 2) := by
  rw [firstTag?]
  split
  · next missing => rw [missing, Option.bind_none]
  · next found => rw [found, Option.bind_some]

/-- A run of text outside scripts, if it is not empty. -/
def html (size : Nat) : List Lexeme :=
  if size = 0 then [] else [⟨.inlineHtml, size⟩]

/-- Length of a close tag at the front, with the line break right after it. -/
def closeTagLength (bytes : Bytes) : Nat :=
  2 + Bytes.lineBreakLength (bytes.drop 2)

end PageScript.Lexeme
