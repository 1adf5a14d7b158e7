/-
A place in a text, counted in bytes.

A cursor walks the bytes of its source.  The end is a position of its own, so a zero
byte inside the text is an ordinary byte.  Steps of one byte may stop inside a
character; cutting a piece out is still safe, since `between` gives the empty text for
a range that splits a character or leaves the source.

The lemmas say that a run is never passed backwards, and that a step from any place but
the end gets somewhere.  That a scan comes to an end rests on them.
-/
import MonkeyTokens.Text.Utf8

namespace MonkeyTokens

/-- A byte offset in a text. -/
structure Cursor where
  /-- The text that the cursor walks. -/
  source : String
  /-- How many bytes lie before the cursor. -/
  pos : Nat
  deriving DecidableEq

namespace Cursor

/-- The cursor at the beginning of a text. -/
def ofText (source : String) : Cursor :=
  ⟨source, 0⟩

/-- Has every byte been passed? -/
def atEnd (c : Cursor) : Bool :=
  c.source.utf8ByteSize ≤ c.pos

/-- The byte at the cursor, and zero at the end. -/
def current (c : Cursor) : UInt8 :=
  if h : (⟨c.pos⟩ : String.Pos.Raw) < c.source.rawEndPos then
    c.source.getUTF8Byte ⟨c.pos⟩ h
  else 0

/-! ### Movement -/

/-- One byte further, unless at the end. -/
def stepByte (c : Cursor) : Cursor :=
  if c.atEnd then c else { c with pos := c.pos + 1 }

/-- Past the character that begins at the cursor, and never past the end. -/
def stepChar (c : Cursor) : Cursor :=
  if c.atEnd then c
  else { c with pos := min (c.pos + Utf8.leadWidth c.current) c.source.utf8ByteSize }

/-- Past the longest run of bytes that satisfy `p`. -/
def skipWhile (p : UInt8 → Bool) (c : Cursor) : Cursor :=
  if _h : c.pos < c.source.utf8ByteSize ∧ p c.current then
    skipWhile p { c with pos := c.pos + 1 }
  else c
termination_by c.source.utf8ByteSize - c.pos
decreasing_by omega

/-- The cursor at a byte offset.  Offsets beyond the end count as the end, and one inside a
character is moved to the character after it. -/
def ofOffset (source : String) (pos : Nat) : Cursor :=
  skipWhile Utf8.isContinuation ⟨source, min pos source.utf8ByteSize⟩

/-! ### Cutting out -/

/-- The text from byte `start` to byte `stop`, and the empty text if one of them lies beyond
the end or inside a character. -/
def between (c : Cursor) (start stop : Nat) : String :=
  if h : String.Pos.Raw.IsValid c.source ⟨start⟩ ∧ String.Pos.Raw.IsValid c.source ⟨stop⟩ then
    String.extract (s := c.source) ⟨⟨start⟩, h.1⟩ ⟨⟨stop⟩, h.2⟩
  else ""

/-- A range whose ends are in the wrong order. -/
structure ReversedRange where
  start : Nat
  stop : Nat
  deriving DecidableEq

/-- How a reversed range is reported. -/
def ReversedRange.message (r : ReversedRange) : String :=
  s!"slice start {r.start} exceeds end {r.stop}"

/-- The text from byte `start` to byte `stop`, which must not come before `start`. -/
def cut (c : Cursor) (start stop : Nat) : Except ReversedRange String :=
  if stop < start then .error ⟨start, stop⟩ else .ok (c.between start stop)

/-- The text from byte `start` to the cursor. -/
def cutFrom (c : Cursor) (start : Nat) : Except ReversedRange String :=
  c.cut start c.pos

/-! ### Where movement leads -/

variable {c : Cursor}

theorem atEnd_eq_false_iff : c.atEnd = false ↔ c.pos < c.source.utf8ByteSize := by
  simp [atEnd]

@[simp] theorem source_stepByte (c : Cursor) : c.stepByte.source = c.source := by
  unfold stepByte
  split <;> rfl

@[simp] theorem source_stepChar (c : Cursor) : c.stepChar.source = c.source := by
  unfold stepChar
  split <;> rfl

@[simp] theorem source_skipWhile (p : UInt8 → Bool) (c : Cursor) :
    (c.skipWhile p).source = c.source := by
  fun_induction skipWhile p c with
  | case1 c h ih => exact ih
  | case2 c h => rfl

@[simp] theorem source_ofOffset (source : String) (pos : Nat) :
    (ofOffset source pos).source = source := by
  simp [ofOffset]

/-- A run is passed forwards. -/
theorem pos_le_pos_skipWhile (p : UInt8 → Bool) (c : Cursor) : c.pos ≤ (c.skipWhile p).pos := by
  fun_induction skipWhile p c with
  | case1 c h ih => simp only at ih; omega
  | case2 c h => exact Nat.le_refl _

/-- A run that holds at the cursor is passed by at least one byte. -/
theorem pos_lt_pos_skipWhile {p : UInt8 → Bool} (h : c.atEnd = false) (hp : p c.current = true) :
    c.pos < (c.skipWhile p).pos := by
  rw [atEnd_eq_false_iff] at h
  rw [skipWhile, dif_pos ⟨h, hp⟩]
  exact Nat.lt_of_lt_of_le (Nat.lt_succ_self _)
    (pos_le_pos_skipWhile p { c with pos := c.pos + 1 })

/-- A step from any place but the end makes progress. -/
theorem pos_lt_pos_stepByte (h : c.atEnd = false) : c.pos < c.stepByte.pos := by
  simp [stepByte, h]

/-- A step over a character from any place but the end makes progress. -/
theorem pos_lt_pos_stepChar (h : c.atEnd = false) : c.pos < c.stepChar.pos := by
  have hw := Utf8.leadWidth_pos c.current
  have hlt := atEnd_eq_false_iff.1 h
  simp only [stepChar, h, Bool.false_eq_true, if_false]
  omega

/-- Starting from an offset never starts before it, as far as the text reaches. -/
theorem min_le_pos_ofOffset (source : String) (pos : Nat) :
    min pos source.utf8ByteSize ≤ (ofOffset source pos).pos :=
  pos_le_pos_skipWhile _ ⟨source, min pos source.utf8ByteSize⟩

end Cursor

end MonkeyTokens
