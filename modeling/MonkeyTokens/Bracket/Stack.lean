/-
The running count of open brackets.

The stack holds the brackets that are open, and can be carried from one piece of a
stream to the next, so nothing is counted twice.  The first wrong closer settles the
standing: from then on tokens change nothing until the stack is cleared.
-/
import MonkeyTokens.Bracket.Balance
import MonkeyTokens.Token

namespace MonkeyTokens

/-- The brackets open so far, and the first fault. -/
structure BracketStack where
  /-- The open brackets, innermost first. -/
  pending : List Bracket
  /-- The first wrong closer, if there was one. -/
  fault : Option BracketFault
  deriving DecidableEq

namespace BracketStack

/-- Nothing open, nothing wrong. -/
def empty : BracketStack :=
  ⟨[], none⟩

/-- Accounts for the closer of `b`.  A wrong closer takes the innermost opener with it. -/
def close (s : BracketStack) (b : Bracket) : BracketStack :=
  match s.pending with
  | [] => { s with fault := some (.unopened b) }
  | expected :: rest =>
    if expected = b then { s with pending := rest }
    else ⟨rest, some (.mismatched expected b)⟩

/-- Accounts for one token.  Its kind alone matters, and only that of a bracket. -/
def push (s : BracketStack) (t : Token) : BracketStack :=
  match s.fault with
  | some _ => s
  | none =>
    match t.kind with
    | .punct (.opening b) => { s with pending := b :: s.pending }
    | .punct (.closing b) => s.close b
    | _ => s

/-- Accounts for several tokens, in order. -/
def extend (s : BracketStack) (ts : List Token) : BracketStack :=
  ts.foldl push s

/-- Where the tokens accounted for stand. -/
def balance (s : BracketStack) : Balance :=
  match s.fault with
  | some fault => .broken fault
  | none => if s.pending.isEmpty then .complete else .incomplete s.pending.length

/-! ### Pieces -/

@[simp] theorem extend_nil (s : BracketStack) : s.extend [] = s := rfl

@[simp] theorem extend_cons (s : BracketStack) (t : Token) (ts : List Token) :
    s.extend (t :: ts) = (s.push t).extend ts := rfl

/-- Two pieces in a row count as one. -/
theorem extend_append (s : BracketStack) (ts us : List Token) :
    s.extend (ts ++ us) = (s.extend ts).extend us :=
  List.foldl_append

end BracketStack

/-- Where a whole token stream stands. -/
def Balance.ofTokens (ts : List Token) : Balance :=
  (BracketStack.empty.extend ts).balance

end MonkeyTokens
