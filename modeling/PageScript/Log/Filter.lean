import PageScript.Log.Event
import PageScript.Text.Alphanumeric
import PageScript.Text.Blank
import PageScript.Text.Whole

/-!
# Log filters

A filter says which events are logged.  It is written as directives separated by
commas.  A directive gives the least level of the events that it speaks of:

* `debug` speaks of every event;
* `target=debug` speaks of the events whose target begins with `target`;
* `target[{field}]=debug` speaks of those of them that have the field.

A directive without a level lets every level through.  A directive may also name an
enclosing span or the value of a field of one.  No event of this program stands in a
span, so such a directive speaks of no event.

Of the directives that speak of an event the most specific one decides: the one with
the longest target, then the one with the most fields.  A later directive takes the
place of an earlier one about the same target and fields.
-/

namespace PageScript

namespace Level

/-- The level with a name in any case, or with a number. -/
def ofText? (text : String) : Option Level :=
  let lowered := String.ofList (text.toList.map Char.toLower)
  if lowered = "off" then some .off
  else if lowered = "error" then some .error
  else if lowered = "warn" then some .warn
  else if lowered = "info" then some .info
  else if lowered = "debug" then some .debug
  else if lowered = "trace" then some .trace
  else
    match Text.wholeNumber? text with
    | some 0 => some .off
    | some 1 => some .error
    | some 2 => some .warn
    | some 3 => some .info
    | some 4 => some .debug
    | some 5 => some .trace
    | _ => none

/-- The level after the equals sign of a directive.  Every level is let through if
nothing stands there. -/
def ofSuffix? (text : String) : Option Level :=
  if text = "" then some .trace else ofText? text

end Level

/-- A field that a directive names. -/
structure FieldTest where
  name : String
  /-- Whether the directive also asks for a value of the field. -/
  hasValue : Bool
  deriving DecidableEq

/-- One part of a filter, as it is written. -/
structure Directive where
  level : Level
  target : Option String := none
  /-- The span in which an event has to stand. -/
  span : Option String := none
  fields : List FieldTest := []
  deriving DecidableEq

namespace Directive

/-- A directive that is being read: its marks are looked for in `marks`, the text
without the blanks around it, and its pieces are cut from the text itself, where both
are counted from their own beginnings. -/
structure Draft where
  text : List Char
  marks : List Char

namespace Draft

/-- The piece of the text between two positions. -/
def piece (draft : Draft) (start stop : Nat) : String :=
  String.ofList ((draft.text.take stop).drop start)

/-- The piece of the text from a position on. -/
def pieceFrom (draft : Draft) (start : Nat) : String :=
  String.ofList (draft.text.drop start)

/-- The first position from `start` on whose mark satisfies `isMark`, or the end. -/
def find (draft : Draft) (isMark : Char → Bool) (start : Nat) : Nat :=
  start + ((draft.marks.drop start).takeWhile fun char => !isMark char).length

/-- The mark at a position. -/
def mark? (draft : Draft) (position : Nat) : Option Char :=
  draft.marks[position]?

/-- Read what follows a span part: nothing, or an equals sign and a level. -/
def level? (draft : Draft) (position : Nat) : Option Level :=
  match draft.mark? position with
  | none => some .trace
  | some '=' => Level.ofSuffix? (draft.pieceFrom (position + 1))
  | some _ => none

/-- Read a field, which may have a value after an equals sign. -/
def field? (text : String) : Option FieldTest :=
  match text.splitOn "=" with
  | [] => none
  | [name] => if name = "" then none else some ⟨name, false⟩
  | name :: _ :: _ => some ⟨name, true⟩

/-- Read a directive from the position after an opening bracket: the name of a span, a
field in braces, or both, and the level. -/
def bracketed? (draft : Draft) (target : Option String) (start : Nat) : Option Directive :=
  let stop := draft.find (fun char => char == ']' || char == '\x7b') start
  let span := draft.piece start stop
  match draft.mark? stop with
  | some ']' =>
      (draft.level? (stop + 1)).map fun level => { level, target, span := some span }
  | some '\x7b' =>
      let closing := draft.find (· == '\x7d') (stop + 1)
      if draft.mark? closing = some '\x7d' && draft.mark? (closing + 1) = some ']' then do
        let field ← field? (draft.piece (stop + 1) closing)
        let level ← draft.level? (closing + 2)
        return { level, target, span := if span = "" then none else some span, fields := [field] }
      else none
  | _ => none

end Draft

/-- Whether a character may open a directive that does not begin with a bracket. -/
def mayOpen (char : Char) : Bool :=
  Text.isAlphanumeric char || char == '-' || char == ':' || char == '_'

/-- Read a directive that names a level or a target alone. -/
def ofWord (text : String) : Directive :=
  match Level.ofText? text with
  | some level => { level }
  | none => { level := .trace, target := some text }

/-- The directive that a text describes. -/
def parse? (text : String) : Option Directive :=
  let draft : Draft := ⟨text.toList, Text.withoutBlanks text.toList⟩
  match draft.marks with
  | [] => none
  | first :: _ =>
      if first = '[' then draft.bracketed? none 1
      else if mayOpen first then
        let stop := draft.find (fun char => char == '=' || char == '[') 0
        let target := some (draft.piece 0 stop)
        match draft.mark? stop with
        | none => some (ofWord text)
        | some '=' =>
            (Level.ofSuffix? (draft.pieceFrom (stop + 1))).map fun level => { level, target }
        | some _ => draft.bracketed? target (stop + 1)
      else none

end Directive

/-- What a directive says about events that stand in no span. -/
structure FilterRule where
  level : Level
  target : Option String := none
  fields : List String := []
  deriving DecidableEq

namespace FilterRule

/-- The rule of a directive.  One that asks for a span or for a value has none. -/
def ofDirective? (directive : Directive) : Option FilterRule :=
  if directive.span.isSome || directive.fields.any FieldTest.hasValue then
    none
  else
    some ⟨directive.level, directive.target, directive.fields.map FieldTest.name⟩

/-- Whether the rule speaks of an event. -/
def speaksOf (rule : FilterRule) (event : Event) : Bool :=
  rule.target.all (fun target => event.target.startsWith target) &&
    rule.fields.all event.fieldNames.contains

/-- One more than the length of the target, or zero if there is none. -/
def targetRank (rule : FilterRule) : Nat :=
  match rule.target with
  | none => 0
  | some target => target.utf8ByteSize + 1

/-- Compare two lists of names, the first difference deciding. -/
def compareNames : List String → List String → Ordering
  | [], [] => .eq
  | [], _ :: _ => .lt
  | _ :: _, [] => .gt
  | left :: leftRest, right :: rightRest =>
      (compare left right).then (compareNames leftRest rightRest)

/-- Compare two rules by how specific they are.  Rules that are equally specific are
ordered by their texts, so that only rules about the same target and fields are
equal. -/
def compareTo (left right : FilterRule) : Ordering :=
  (compare left.targetRank right.targetRank).then <|
    (compare left.fields.length right.fields.length).then <|
      (compareNames left.target.toList right.target.toList).then <|
        compareNames left.fields right.fields

end FilterRule

/-- Which events are logged: rules, more specific ones first. -/
structure Filter where
  rules : List FilterRule
  deriving DecidableEq

namespace Filter

/-- Add a rule at its place, instead of one about the same target and fields. -/
def insertRule (rule : FilterRule) : List FilterRule → List FilterRule
  | [] => [rule]
  | first :: rest =>
      match rule.compareTo first with
      | .gt => rule :: first :: rest
      | .eq => rule :: rest
      | .lt => first :: insertRule rule rest

/-- The filter of directives, the later ones prevailing.  Without directives errors
are logged. -/
def ofDirectives (directives : List Directive) : Filter :=
  if directives.isEmpty then
    ⟨[{ level := .error }]⟩
  else
    ⟨(directives.filterMap FilterRule.ofDirective?).foldl
      (fun rules rule => insertRule rule rules) []⟩

/-- The filter that a text describes.  A single malformed directive refuses it. -/
def parse? (text : String) : Option Filter :=
  (((text.splitOn ",").filter (· != "")).mapM Directive.parse?).map ofDirectives

/-- The filter that lets through the events from a level on. -/
def ofLevel (level : Level) : Filter :=
  ofDirectives [{ level }]

/-- The filter of a run.  A text that describes one decides.  Otherwise warnings are
logged, and everything but traces if that was asked for. -/
def choose (verbose : Bool) (text : Option String) : Filter :=
  (text.bind parse?).getD (ofLevel (if verbose then .debug else .warn))

/-- Whether an event is logged. -/
def allows (filter : Filter) (event : Event) : Bool :=
  match filter.rules.find? (·.speaksOf event) with
  | some rule => rule.level.rank ≤ event.level.rank
  | none => false

end Filter

end PageScript
