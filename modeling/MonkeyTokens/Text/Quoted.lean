/-
Quoted text.

A text is written between double quotes.  A quote, a backslash, a line break, a tab and
a zero character get a backslash and one letter; every other character that would not
show gets its code point in hexadecimal, between braces; all others stand for
themselves.  The result is one line, whatever the text.
-/
import MonkeyTokens.Text.Unprintable

namespace MonkeyTokens.Quoted

/-- Is `c` an ASCII control character? -/
def isControl (c : Char) : Bool :=
  c.toNat < 0x20 || c.toNat == 0x7F

/-- The code point of a character between braces, in hexadecimal without leading zeros. -/
def codePoint (c : Char) : List Char :=
  ['\\', 'u', '{'] ++ Nat.toDigits 16 c.toNat ++ ['}']

/-- How one character is written. -/
def encodeChar (c : Char) : List Char :=
  match c with
  | '\x00' => ['\\', '0']
  | '\t' => ['\\', 't']
  | '\r' => ['\\', 'r']
  | '\n' => ['\\', 'n']
  | '"' => ['\\', '"']
  | '\\' => ['\\', '\\']
  | c => if isControl c || isUnprintable c then codePoint c else [c]

/-- A text as it stands in listings and log lines. -/
def encode (text : String) : String :=
  String.ofList (['"'] ++ text.toList.flatMap encodeChar ++ ['"'])

end MonkeyTokens.Quoted
