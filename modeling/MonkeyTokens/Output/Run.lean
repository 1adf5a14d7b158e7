/-
A run: what a program does, step by step, and how it ends.

Writing, flushing and reporting an event are the only things that a program does to its
surroundings, and it never looks at their results except to stop at a failure.  So a run
is a list of effects together with the failure that follows them, if one does.
-/
import MonkeyTokens.Event.Basic
import MonkeyTokens.Failure

namespace MonkeyTokens

/-- One thing done to the surroundings. -/
inductive Effect where
  /-- Hands text to the output. -/
  | write (text : String)
  /-- Asks the output to pass on what it holds. -/
  | flush
  /-- Reports an event. -/
  | log (event : Event)
  deriving DecidableEq

/-- The effects of a program, in order, and its ending. -/
structure Run where
  effects : List Effect
  /-- The failure after the last effect, if the program fails. -/
  failure : Option Failure
  deriving DecidableEq

namespace Run

/-- Does nothing and succeeds. -/
def idle : Run :=
  ⟨[], none⟩

/-- Writes one text. -/
def say (text : String) : Run :=
  ⟨[.write text], none⟩

/-- Does `effects` first. -/
def after (effects : List Effect) (r : Run) : Run :=
  ⟨effects ++ r.effects, r.failure⟩

end Run

/-- Reports all events of a scan. -/
def Span.logs (s : Span) : List Effect :=
  s.events.map .log

end MonkeyTokens
