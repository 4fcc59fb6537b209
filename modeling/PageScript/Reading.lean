import PageScript.Handover
import PageScript.Mode

/-!
# Reading a page

A page is read by asking for its tokens until none is left, while its scan works side
by side.  The capacity of the channel between the two decides how far the scan may run
ahead, and nothing else.
-/

namespace PageScript

/-- How one page is scanned. -/
structure ScanOptions where
  file : FileId
  /-- Tokens held between scanner and reader. -/
  channelCapacity : Nat
  deriving DecidableEq

/-- What is known about a page when no token is left. -/
structure Reading where
  /-- The tokens that were received, in order. -/
  tokens : List Token
  /-- The warnings that were given, in order. -/
  warnings : List Warning
  /-- Whether a token was lost because the reader was gone. -/
  halted : Bool
  deriving DecidableEq

namespace ScanOptions

/-- The scan of a page from a mode on and its reader, before their first move. -/
def start (options : ScanOptions) (mode : Mode) (bytes : Bytes) : Handover Mode.grammar :=
  Handover.start Mode.grammar mode (Scanner.ofBytes bytes options.file) options.channelCapacity

/-- Read a whole page from a mode on.  A token has at least one byte, so no page has
more tokens than bytes. -/
def read (options : ScanOptions) (mode : Mode) (bytes : Bytes) : Reading :=
  let (tokens, last) := (options.start mode bytes).collect (bytes.length + 1)
  { tokens
    warnings := last.scanner.warnings.reverse
    halted := last.scanner.halted }

end ScanOptions

end PageScript
