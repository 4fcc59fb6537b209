import PageScript.Mode
import PageScript.Proofs.Boundary

/-!
# Placing lexemes

A lexeme says what kind of piece comes next and how long it is.  What has been read
says where that piece stands.  Together they give the token, so the tokens of a call
are known from its lexemes and the bytes on either side.

Publishing lexemes that fit in the bytes left does nothing but append their tokens.
-/

namespace PageScript

namespace Bytes

/-- The bytes read, nearest first, once `count` more have been read. -/
def readOn (behind ahead : Bytes) (count : Nat) : Bytes :=
  (ahead.take count).reverse ++ behind

theorem length_reverse_append (data behind : Bytes) :
    (data.reverse ++ behind).length = behind.length + data.length := by
  rw [List.length_append, List.length_reverse, Nat.add_comm]

variable (behind ahead : Bytes)

@[simp] theorem readOn_zero : readOn behind ahead 0 = behind := by
  simp [readOn]

@[simp] theorem readOn_append_length (front back : Bytes) :
    readOn behind (front ++ back) front.length = front.reverse ++ behind := by
  rw [readOn, List.take_left]

/-- Reading in two goes reads the same bytes. -/
theorem readOn_add (first second : Nat) :
    readOn behind ahead (first + second) =
      readOn (readOn behind ahead first) (ahead.drop first) second := by
  simp [readOn, List.take_add, List.append_assoc]

/-- Reading on keeps the page. -/
theorem reverse_readOn_append_drop (count : Nat) :
    (readOn behind ahead count).reverse ++ ahead.drop count = behind.reverse ++ ahead := by
  simp [readOn, List.append_assoc]

theorem length_readOn {count : Nat} (fits : count ≤ ahead.length) :
    (readOn behind ahead count).length = behind.length + count := by
  simp [readOn, Nat.min_eq_left fits, Nat.add_comm]

end Bytes

/-- Where the next `size` bytes stand. -/
def Span.after (file : FileId) (behind : Bytes) (size : Nat) : Span where
  start := behind.length
  stop := behind.length + size
  line := 1 + UInt32.ofNat (behind.count Byte.lineFeed)
  column := UInt32.ofNat (Bytes.runLength (· != Byte.lineFeed) behind + 1)
  file := file

theorem Cursor.column_holding (behind held ahead : Bytes) :
    (holding behind held ahead).column =
      UInt32.ofNat (Bytes.runLength (· != Byte.lineFeed) behind + 1) := by
  have short := Bytes.runLength_le (· != Byte.lineFeed) behind
  have distance : (holding behind held ahead).start - (holding behind held ahead).lineStart =
      Bytes.runLength (· != Byte.lineFeed) behind := by
    simp only [holding]
    omega
  rw [column, distance]

@[simp] theorem Cursor.takeSpan_holding (behind held ahead : Bytes) (file : FileId) :
    (holding behind held ahead).takeSpan file =
      .ok (.after file behind held.length, between (held.reverse ++ behind) ahead) := by
  rw [takeSpan, moveMark_holding, column_holding]
  rfl

/-- The token of the bytes `data` that come next. -/
def Token.after (file : FileId) (behind : Bytes) (kind : Kind) (data : Bytes) : Token where
  kind := kind
  span := .after file behind data.length
  data := data

namespace Lexeme

/-- Number of bytes that lexemes take together. -/
def totalSize : List Lexeme → Nat
  | [] => 0
  | lexeme :: rest => lexeme.size + totalSize rest

@[simp] theorem totalSize_nil : totalSize [] = 0 := rfl

@[simp] theorem totalSize_cons (lexeme : Lexeme) (rest : List Lexeme) :
    totalSize (lexeme :: rest) = lexeme.size + totalSize rest := rfl

@[simp] theorem totalSize_append (front back : List Lexeme) :
    totalSize (front ++ back) = totalSize front + totalSize back := by
  induction front with
  | nil => simp
  | cons lexeme front ih => simp [ih, Nat.add_assoc]

/-- The tokens of lexemes at the front of the bytes left. -/
def place (file : FileId) (behind ahead : Bytes) : List Lexeme → List Token
  | [] => []
  | lexeme :: rest =>
      .after file behind lexeme.kind (ahead.take lexeme.size) ::
        place file (behind.readOn ahead lexeme.size) (ahead.drop lexeme.size) rest

variable (file : FileId) (behind ahead : Bytes)

@[simp] theorem place_nil : place file behind ahead [] = [] := rfl

theorem place_append (front back : List Lexeme) :
    place file behind ahead (front ++ back) =
      place file behind ahead front ++
        place file (behind.readOn ahead (totalSize front)) (ahead.drop (totalSize front))
          back := by
  induction front generalizing behind ahead with
  | nil => simp
  | cons lexeme front ih =>
      simp only [List.cons_append, place, ih, totalSize_cons, Bytes.readOn_add, List.drop_drop]

/-- The tokens hold the bytes that the lexemes take. -/
theorem flatMap_data_place (lexemes : List Lexeme) :
    (place file behind ahead lexemes).flatMap (·.data) = ahead.take (totalSize lexemes) := by
  induction lexemes generalizing behind ahead with
  | nil => simp
  | cons lexeme rest ih =>
      rw [place, List.flatMap_cons, ih, totalSize_cons, List.take_add]
      rfl

/-- Only the bytes that lexemes take are looked at. -/
theorem place_append_left {lexemes : List Lexeme} (fits : totalSize lexemes ≤ ahead.length)
    (rest : Bytes) :
    place file behind (ahead ++ rest) lexemes = place file behind ahead lexemes := by
  induction lexemes generalizing behind ahead with
  | nil => rfl
  | cons lexeme lexemes ih =>
      rw [totalSize_cons] at fits
      have here : lexeme.size ≤ ahead.length := by omega
      have taken : (ahead ++ rest).take lexeme.size = ahead.take lexeme.size :=
        List.take_append_of_le_length here
      have left : (ahead ++ rest).drop lexeme.size = ahead.drop lexeme.size ++ rest :=
        List.drop_append_of_le_length here
      rw [place, place, Bytes.readOn, Bytes.readOn, taken, left, ih]
      rw [List.length_drop]
      omega

end Lexeme

namespace Scanner

/-- A scanner between tokens, whose reader is still there. -/
def between (file : FileId) (behind ahead : Bytes) (published : List Token)
    (warnings : List Warning) : Scanner where
  cursor := .between behind ahead
  file := file
  published := published
  warnings := warnings

theorem ofBytes_eq_between (bytes : Bytes) (file : FileId) :
    ofBytes bytes file = between file [] bytes [] [] := by
  rw [ofBytes, between, Cursor.ofBytes_eq_between]

variable (file : FileId) (behind ahead : Bytes) (published : List Token)
  (warnings : List Warning)

@[simp] theorem between_cursor :
    (between file behind ahead published warnings).cursor = .between behind ahead := rfl

@[simp] theorem between_halted :
    (between file behind ahead published warnings).halted = false := rfl

theorem warn_between (warning : Warning) :
    (between file behind ahead published warnings).warn warning =
      between file behind ahead published (warning :: warnings) := rfl

/-- The bytes that a scanner holds pending become the next token. -/
theorem emit_holding (held rest : Bytes) (kind : Kind) :
    ((between file behind ahead published warnings).withCursor
        (.holding behind held rest)).emit kind =
      .ok (some (.after file behind kind held),
        between file (held.reverse ++ behind) rest
          (.after file behind kind held :: published) warnings) := by
  simp [emit, withCursor, between, Token.after]

end Scanner

namespace Mode

/-- Publishing lexemes that fit appends their tokens and moves past them. -/
theorem publish_between (file : FileId) (behind ahead : Bytes) (published : List Token)
    (warnings : List Warning) (lexemes : List Lexeme)
    (fits : Lexeme.totalSize lexemes ≤ ahead.length) :
    publish lexemes (.between file behind ahead published warnings) =
      (none, .between file (behind.readOn ahead (Lexeme.totalSize lexemes))
        (ahead.drop (Lexeme.totalSize lexemes))
        ((Lexeme.place file behind ahead lexemes).reverse ++ published) warnings) := by
  induction lexemes generalizing behind ahead published with
  | nil => simp [publish]
  | cons lexeme rest ih =>
      rw [Lexeme.totalSize_cons] at fits
      have restFits : Lexeme.totalSize rest ≤ (ahead.drop lexeme.size).length := by
        rw [List.length_drop]
        omega
      rw [publish, Scanner.between_cursor, Cursor.skip_between behind ahead (by omega),
        Scanner.emit_holding]
      simp only [ih _ _ _ restFits, ← Bytes.readOn.eq_def]
      simp [Lexeme.place, Bytes.readOn_add, List.drop_drop]

end Mode

end PageScript
