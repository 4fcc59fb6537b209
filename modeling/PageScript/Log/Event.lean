import PageScript.Literal.Compile
import PageScript.Scanner

/-!
# Log events

What a run reports while it works.  An event has a level, a message and fields in
a fixed order.  A field holds either a text, which a log line quotes, or a value
whose text stands as it is.
-/

namespace PageScript

/-- How much attention an event wants. -/
inductive Level where
  | trace
  | debug
  | info
  | warn
  | error
  | off
  deriving DecidableEq

namespace Level

/-- The place of a level among the others. -/
def rank : Level → Nat
  | .trace => 0
  | .debug => 1
  | .info => 2
  | .warn => 3
  | .error => 4
  | .off => 5

/-- The name of a level in log lines. -/
def text : Level → String
  | .trace => "TRACE"
  | .debug => "DEBUG"
  | .info => "INFO"
  | .warn => "WARN"
  | .error => "ERROR"
  | .off => "OFF"

end Level

/-- The value of a field. -/
inductive FieldValue where
  /-- A text, quoted in log lines. -/
  | quoted (text : String)
  /-- The text of a value, shown as it is. -/
  | plain (text : String)
  deriving DecidableEq

namespace FieldValue

/-- The value without quotes. -/
def text : FieldValue → String
  | .quoted text => text
  | .plain text => text

/-- The value as a log line shows it. -/
def render : FieldValue → String
  | .quoted text => Text.quoted text
  | .plain text => text

/-- The value of a number. -/
def ofNat (value : Nat) : FieldValue :=
  .plain (toString value)

end FieldValue

/-- An enclosure as log lines show it.  A label is shown by the numbers of its
bytes. -/
def Enclosure.describe : Enclosure → String
  | .doubleQuote => "DoubleQuote"
  | .backtick => "Backtick"
  | .heredoc label =>
      "Heredoc([" ++ ", ".intercalate (label.map fun byte => toString byte.toNat) ++ "])"

/-- Something worth reporting. -/
inductive Event where
  /-- A scan of so many bytes begins. -/
  | scannerStarted (file : FileId) (size : Nat)
  /-- A construct is cut off by the end of the page. -/
  | warned (warning : Warning)
  /-- A scan ended after so many tokens. -/
  | scannerFinished (file : FileId) (tokens : Nat) (halted : Bool)
  /-- The tokens ended inside a literal whose opener stands at `span`. -/
  | streamEnded (literal : LiteralKind) (span : Span)
  /-- The tokens of a page were listed. -/
  | scannedTokens (file : String) (count : Nat)
  /-- The literals of a page were listed. -/
  | compiledLiterals (file : String) (count : Nat)
  /-- A check begins on so many workers. -/
  | checkingFiles (jobs : Nat)
  /-- One page was checked. -/
  | checkedFile (file : String) (problems : Nat)
  /-- A check ended. -/
  | checkFinished (files failed : Nat)
  deriving DecidableEq

namespace Event

/-- How much attention the event wants. -/
def level : Event → Level
  | .warned _ => .warn
  | .checkFinished _ _ => .info
  | _ => .debug

/-- What the event says. -/
def message : Event → String
  | .scannerStarted _ _ => "scanner started"
  | .warned (.comment _ _) => "unterminated comment"
  | .warned (.singleQuoted _ _) => "unterminated single-quoted string"
  | .warned (.body _) => "unterminated string body"
  | .scannerFinished _ _ _ => "scanner finished"
  | .streamEnded _ _ => "token stream ended inside literal"
  | .scannedTokens _ _ => "scanned tokens"
  | .compiledLiterals _ _ => "compiled literals"
  | .checkingFiles _ => "checking files"
  | .checkedFile _ _ => "checked file"
  | .checkFinished _ _ => "check finished"

/-- The position fields of a warning. -/
def positionFields (line column : UInt32) : List (String × FieldValue) :=
  [("line", .ofNat line.toNat), ("column", .ofNat column.toNat)]

/-- The fields of the event, in order. -/
def fields : Event → List (String × FieldValue)
  | .scannerStarted file size => [("file", .ofNat file.index), ("bytes", .ofNat size)]
  | .warned (.comment line column) => positionFields line column
  | .warned (.singleQuoted line column) => positionFields line column
  | .warned (.body enclosure) => [("enclosure", .plain enclosure.describe)]
  | .scannerFinished file tokens halted =>
      [("file", .ofNat file.index), ("tokens", .ofNat tokens),
        ("halted", .plain (toString halted))]
  | .streamEnded literal span =>
      [("literal", .plain literal.text), ("span", .plain span.position)]
  | .scannedTokens file count => [("file", .quoted file), ("count", .ofNat count)]
  | .compiledLiterals file count => [("file", .quoted file), ("count", .ofNat count)]
  | .checkingFiles jobs => [("jobs", .ofNat jobs)]
  | .checkedFile file problems => [("file", .quoted file), ("problems", .ofNat problems)]
  | .checkFinished files failed => [("files", .ofNat files), ("failed", .ofNat failed)]

/-- The part of the program that the event comes from, as filters call it. -/
def target : Event → String
  | .scannerStarted _ _ => "phoxc_lex::lexer::core"
  | .warned (.comment _ _) => "phoxc_lex::lexer::comment"
  | .warned (.singleQuoted _ _) => "phoxc_lex::lexer::string"
  | .warned (.body _) => "phoxc_lex::lexer::string"
  | .scannerFinished _ _ _ => "phoxc_lex::lexer::core"
  | .streamEnded _ _ => "phoxc_lit::quote"
  | .scannedTokens _ _ => "phoxt::commands::tokens"
  | .compiledLiterals _ _ => "phoxt::commands::strings"
  | .checkingFiles _ => "phoxt::commands::check"
  | .checkedFile _ _ => "phoxt::commands::check"
  | .checkFinished _ _ => "phoxt::commands::check"

/-- Fields whose values a clock decides.  Log lines leave them out. -/
def clockFields : Event → List String
  | .checkFinished _ _ => ["elapsed_ms"]
  | _ => []

/-- The names of all fields of the event.  What it says is a field too. -/
def fieldNames (event : Event) : List String :=
  "message" :: event.fields.map (·.1) ++ event.clockFields

/-- The log line of the event. -/
def line (event : Event) : String :=
  let shown := event.fields.map fun (name, value) => " " ++ name ++ "=" ++ value.render
  event.level.text ++ " " ++ event.message ++ String.join shown

end Event

end PageScript
