/-
Bytes of text.

A character takes one to four bytes.  Two facts about a byte matter here: the first
byte of a character announces how many bytes the character has, and all later bytes
are marked as continuations.  Text arrives and leaves as bytes; `decode?` accepts
exactly the strict encoding.
-/

namespace MonkeyTokens.Utf8

/-- Is the byte marked as a later byte of a character? -/
def isContinuation (b : UInt8) : Bool :=
  b &&& 0xC0 == 0x80

/-- How many bytes the character has that begins with `b`.  Bytes that begin no character
of several bytes count for themselves. -/
def leadWidth (b : UInt8) : Nat :=
  if b < 0xC0 then 1
  else if b < 0xE0 then 2
  else if b < 0xF0 then 3
  else if b < 0xF8 then 4
  else 1

/-- A character has at least one byte. -/
theorem leadWidth_pos (b : UInt8) : 0 < leadWidth b := by
  unfold leadWidth
  repeat' split
  all_goals decide

/-- The bytes of a text. -/
def bytes (text : String) : List UInt8 :=
  text.toUTF8.data.toList

/-- The text with these bytes, if they are the encoding of one. -/
def decode? (bs : List UInt8) : Option String :=
  String.fromUTF8? ⟨bs.toArray⟩

end MonkeyTokens.Utf8
