/-
How a byte decides what comes next.

The language is written in ASCII.  A byte is blank, a letter, a digit, a punctuation
mark, or none of these; every byte of a character beyond ASCII is none of these, so a
run of letters or digits never reaches into such a character.
-/
import MonkeyTokens.Kind

namespace MonkeyTokens

/-- Is the byte a space, a tab, a line feed or a carriage return? -/
def isBlank (b : UInt8) : Bool :=
  match Char.ofUInt8 b with
  | ' ' | '\t' | '\n' | '\r' => true
  | _ => false

/-- Is the byte an ASCII letter or an underscore?  Digits are no letters: they end a name. -/
def isLetter (b : UInt8) : Bool :=
  (Char.ofUInt8 b).isAlpha || Char.ofUInt8 b == '_'

/-- Is the byte an ASCII digit? -/
def isDigit (b : UInt8) : Bool :=
  (Char.ofUInt8 b).isDigit

/-- What the first byte of a character says about it. -/
inductive ByteClass where
  | blank
  | letter
  | digit
  | punct (p : Punct)
  /-- A character that no token but an illegal one begins with. -/
  | other
  deriving DecidableEq

/-- The class of a byte.  No byte meets two of the tests, so their order is immaterial. -/
def ByteClass.ofByte (b : UInt8) : ByteClass :=
  match Punct.ofByte? b with
  | some p => .punct p
  | none =>
    if isLetter b then .letter
    else if isDigit b then .digit
    else if isBlank b then .blank
    else .other

namespace ByteClass

/-- What is classed as a letter is one. -/
theorem isLetter_of_ofByte {b : UInt8} (h : ofByte b = .letter) : isLetter b = true := by
  grind [ofByte]

/-- What is classed as a digit is one. -/
theorem isDigit_of_ofByte {b : UInt8} (h : ofByte b = .digit) : isDigit b = true := by
  grind [ofByte]

end ByteClass

end MonkeyTokens
