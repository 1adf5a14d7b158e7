/-
Where the delimiters of a token stream stand.

Either every opened bracket is closed, or some still wait for their closers, or the
stream is broken: a closer met the wrong opener, or none.  Only a stream that waits
needs more input; a broken one is handed on, so that whoever takes it can say so.
-/
import MonkeyTokens.Kind

namespace MonkeyTokens

/-- How a closer can be wrong. -/
inductive BracketFault where
  /-- The closer of `found` came where the innermost open bracket wants that of `expected`. -/
  | mismatched (expected found : Bracket)
  /-- The closer of `found` came with nothing open. -/
  | unopened (found : Bracket)
  deriving DecidableEq

/-- The standing of a token stream. -/
inductive Balance where
  /-- Every opener has met its closer. -/
  | complete
  /-- `openers` brackets are still open. -/
  | incomplete (openers : Nat)
  | broken (fault : BracketFault)
  deriving DecidableEq

namespace Balance

/-- Is the stream ready to be handed on, rather than waiting for more? -/
def isSettled : Balance → Bool
  | .incomplete _ => false
  | .complete | .broken _ => true

theorem isSettled_eq_false_iff {balance : Balance} :
    balance.isSettled = false ↔ ∃ openers, balance = .incomplete openers := by
  cases balance <;> simp [isSettled]

/-- The kind of token that closes a bracket, as log lines write it. -/
def closerLabel (b : Bracket) : String :=
  (Kind.punct (.closing b)).label

/-- The standing as log lines write it. -/
def label : Balance → String
  | .complete => "Complete"
  | .incomplete n => "Incomplete \x7b open: " ++ toString n ++ " \x7d"
  | .broken (.mismatched expected found) =>
    "Mismatched \x7b expected: " ++ closerLabel expected ++ ", found: " ++ closerLabel found
      ++ " \x7d"
  | .broken (.unopened found) => "Unopened \x7b found: " ++ closerLabel found ++ " \x7d"

end Balance

end MonkeyTokens
