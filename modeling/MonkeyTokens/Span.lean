/-
One scan, and the chain of scans that takes a text apart.

`Span.after` reads one token from any byte offset.  Its result keeps the offsets: where the
call was made, where the token's text begins once the blanks are passed, and where it
stops.  What follows the blanks is told by one byte: a punctuation mark stands alone,
letters and digits run as far as they can, and any other character stands alone as an
illegal token.

`spans` scans from the beginning, each time from where the last scan stopped, until the
end is read.  It terminates because a scan that reads a token stops later than it was
called (`origin_lt_stop_after`).
-/
import MonkeyTokens.ByteClass
import MonkeyTokens.Text.Cursor
import MonkeyTokens.Token

namespace MonkeyTokens

/-- The token read by one scan, and where. -/
structure Span where
  /-- The offset at which the scan was called. -/
  origin : Nat
  /-- The offset of the first byte of the token's text, after the blanks. -/
  start : Nat
  /-- The offset after the last byte of the token's text. -/
  stop : Nat
  token : Token
  deriving DecidableEq

/-- Past the blanks at the cursor. -/
def Cursor.skipBlanks (c : Cursor) : Cursor :=
  c.skipWhile isBlank

/-- Past the token whose first byte is at the cursor. -/
def Cursor.skipToken (c : Cursor) : Cursor :=
  match ByteClass.ofByte c.current with
  | .punct _ => c.stepByte
  | .letter => c.skipWhile isLetter
  | .digit => c.skipWhile isDigit
  | .blank | .other => c.stepChar

/-- The kind of a token from its first byte and its text. -/
def ByteClass.kind (literal : String) : ByteClass → Kind
  | .punct p => .punct p
  | .letter => .ofWord literal
  | .digit => .int
  | .blank | .other => .illegal

/-- Reads one token from a byte offset. -/
def Span.after (source : String) (pos : Nat) : Span :=
  let first := (Cursor.ofOffset source pos).skipBlanks
  if first.atEnd then
    ⟨pos, first.pos, first.pos, .eof⟩
  else
    let last := first.skipToken
    let literal := last.between first.pos last.pos
    ⟨pos, first.pos, last.pos, ⟨(ByteClass.ofByte first.current).kind literal, literal⟩⟩

/-! ### A scan makes progress -/

/-- Only the end of a text is read as the end. -/
theorem ByteClass.kind_ne_eof (literal : String) (b : ByteClass) : b.kind literal ≠ .eof := by
  cases b <;> simp [ByteClass.kind]

@[simp] theorem Cursor.source_skipBlanks (c : Cursor) : c.skipBlanks.source = c.source :=
  source_skipWhile isBlank c

/-- Blanks are passed forwards. -/
theorem Cursor.pos_le_pos_skipBlanks (c : Cursor) : c.pos ≤ c.skipBlanks.pos :=
  pos_le_pos_skipWhile isBlank c

/-- A token has at least one byte. -/
theorem Cursor.pos_lt_pos_skipToken {c : Cursor} (h : c.atEnd = false) :
    c.pos < c.skipToken.pos := by
  unfold Cursor.skipToken
  split
  · exact pos_lt_pos_stepByte h
  · exact pos_lt_pos_skipWhile h (ByteClass.isLetter_of_ofByte ‹_›)
  · exact pos_lt_pos_skipWhile h (ByteClass.isDigit_of_ofByte ‹_›)
  · exact pos_lt_pos_stepChar h
  · exact pos_lt_pos_stepChar h

/-- A scan that reads a token was called before the end and stops later than it was called. -/
theorem origin_lt_stop_after {source : String} {pos : Nat}
    (h : (Span.after source pos).token.isEof = false) :
    pos < source.utf8ByteSize ∧ pos < (Span.after source pos).stop := by
  have hle := Nat.le_trans (Cursor.min_le_pos_ofOffset source pos)
    (Cursor.pos_le_pos_skipBlanks (Cursor.ofOffset source pos))
  by_cases hend : (Cursor.ofOffset source pos).skipBlanks.atEnd = true
  · simp [Span.after, hend, Token.isEof, Token.eof] at h
  · rw [Bool.not_eq_true] at hend
    have hlt := Cursor.atEnd_eq_false_iff.1 hend
    have hstep := Cursor.pos_lt_pos_skipToken hend
    simp only [Cursor.source_skipBlanks, Cursor.source_ofOffset] at hlt
    simp only [Span.after, hend, Bool.false_eq_true, if_false]
    omega

/-! ### The whole text -/

/-- The scans from an offset on, each called where the one before it stopped, up to and
including the first that reads the end. -/
def spansFrom (source : String) (pos : Nat) : List Span :=
  let span := Span.after source pos
  if _h : span.token.isEof then [span]
  else span :: spansFrom source span.stop
termination_by source.utf8ByteSize - pos
decreasing_by
  have hstep := origin_lt_stop_after (Bool.not_eq_true _ ▸ _h)
  omega

/-- The scans that take a text apart. -/
def spans (source : String) : List Span :=
  spansFrom source 0

/-- The tokens of a text, with the token for its end as the last. -/
def tokenize (source : String) : List Token :=
  (spans source).map (·.token)

/-- The tokens of a text before its end. -/
def tokens (source : String) : List Token :=
  (tokenize source).takeWhile (!·.isEof)

end MonkeyTokens
