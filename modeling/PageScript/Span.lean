import PageScript.Bytes

/-!
# Spans

A span says where a piece of a page stands: its byte range, the line and column of
its first byte, and the page it belongs to.  Offsets count bytes.  Lines and
columns count from one and are 32-bit words.
-/

namespace PageScript

/-- The number of a page in a source map. -/
structure FileId where
  index : Nat := 0
  deriving DecidableEq, Inhabited

/-- A byte range of a page, with the position of its first byte. -/
structure Span where
  start : Nat := 0
  stop : Nat := 0
  line : UInt32 := 0
  column : UInt32 := 0
  file : FileId := {}
  deriving DecidableEq, Inhabited

namespace Span

/-- Whether the span covers no byte. -/
def isEmpty (span : Span) : Bool :=
  span.start == span.stop

/-- Number of bytes covered.  The difference of the ends is taken in 64-bit words,
so that a span given back to front wraps around. -/
def size (span : Span) : Nat :=
  if span.start ≤ span.stop then
    span.stop - span.start
  else
    UInt64.size - (span.start - span.stop)

/-- The position of the first byte, as `line:column`. -/
def position (span : Span) : String :=
  toString span.line.toNat ++ ":" ++ toString span.column.toNat

/-- Whether this is the span of nothing in particular. -/
def isDefault (span : Span) : Bool :=
  span == {}

end Span

end PageScript
