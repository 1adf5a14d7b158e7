/-
Outputs that may refuse.

A sink takes bytes as long as it has room and flushes as often as it is willing to.  A
write that does not fit is taken as far as it fits and then fails; an empty write always
fits.  Performing a run on a sink stops at the first refusal, and nothing after it
happens, events included.
-/
import MonkeyTokens.Output.Run

namespace MonkeyTokens

/-- How much of something is left, and what is said when it is used up. -/
structure Limit where
  left : Nat
  reason : String
  deriving DecidableEq

/-- An output. -/
structure Sink where
  /-- How many bytes the sink still takes, if there is a limit. -/
  room : Option Limit
  /-- How many flushes will still succeed, if there is a limit. -/
  flushes : Option Limit
  deriving DecidableEq

/-- What came of a run. -/
structure Outcome where
  /-- The bytes that were taken. -/
  written : List UInt8
  /-- The events that were reported. -/
  events : List Event
  /-- The failure that ended the run, if one did. -/
  failure : Option Failure
  deriving DecidableEq

/-- What came of two runs of which the second followed the first. -/
def Outcome.followedBy (a b : Outcome) : Outcome :=
  ⟨a.written ++ b.written, a.events ++ b.events, b.failure⟩

namespace Sink

/-- The sink that takes everything. -/
def unbounded : Sink :=
  ⟨none, none⟩

/-- Hands bytes to the sink. -/
def write (s : Sink) (bytes : List UInt8) : Outcome × Sink :=
  match s.room with
  | none => (⟨bytes, [], none⟩, s)
  | some room =>
    if room.left < bytes.length then
      (⟨bytes.take room.left, [], some (.stream room.reason)⟩,
        { s with room := some { room with left := 0 } })
    else
      (⟨bytes, [], none⟩,
        { s with room := some { room with left := room.left - bytes.length } })

/-- Asks the sink to flush. -/
def flush (s : Sink) : Outcome × Sink :=
  match s.flushes with
  | none => (⟨[], [], none⟩, s)
  | some ⟨0, reason⟩ => (⟨[], [], some (.stream reason)⟩, s)
  | some ⟨n + 1, reason⟩ => (⟨[], [], none⟩, { s with flushes := some ⟨n, reason⟩ })

/-- Performs one effect. -/
def deliver (s : Sink) : Effect → Outcome × Sink
  | .write text => s.write (Utf8.bytes text)
  | .flush => s.flush
  | .log event => (⟨[], [event], none⟩, s)

/-- Performs effects in order, up to the first refusal, and then ends with `ending`. -/
def deliverAll (ending : Option Failure) (s : Sink) : List Effect → Outcome
  | [] => ⟨[], [], ending⟩
  | e :: es =>
    let (outcome, rest) := s.deliver e
    match outcome.failure with
    | some _ => outcome
    | none => outcome.followedBy (rest.deliverAll ending es)

/-- Performs a run. -/
def perform (s : Sink) (r : Run) : Outcome :=
  s.deliverAll r.failure r.effects

end Sink

end MonkeyTokens
