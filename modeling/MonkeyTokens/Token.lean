/-
Tokens: a kind together with the text that it was read from.

Nothing ties the text to the kind here; the scan does that.  The printed form is one
line and shows both.
-/
import MonkeyTokens.Kind
import MonkeyTokens.Text.Quoted

namespace MonkeyTokens

/-- A piece of the text and what it is. -/
structure Token where
  kind : Kind
  /-- The text of the token, exactly as it stands in the source. -/
  literal : String
  deriving DecidableEq

namespace Token

/-- The token at the end of every text. -/
def eof : Token :=
  ⟨.eof, ""⟩

/-- Is this the end?  Only the kind decides. -/
def isEof (t : Token) : Bool :=
  t.kind = .eof

/-- The printed form: the name of the kind, a space, and the quoted text. -/
def render (t : Token) : String :=
  t.kind.name ++ " " ++ Quoted.encode t.literal

end Token

end MonkeyTokens
