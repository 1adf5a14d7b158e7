/-
What becomes of a run on a sink that refuses.

A sink with room for so many bytes takes the beginning of what a sink without this limit
would take.  The run fails with the reason of the sink where anything is left over, and
ends as it would have ended where nothing is (`cutAt_perform`).  A sink that flushes only
so often has taken what was written up to the flush that it refuses (`perform_flushes`).

Both are inductions on the effects of a run.  What one effect hands over is put before
what the rest does, on the sink with less room or fewer flushes that it leaves behind.
-/
import MonkeyTokens.Proofs.Written

namespace MonkeyTokens

/-! ### Limited room -/

/-- What comes of a run where a sink takes `n` bytes of it and then refuses. -/
structure Outcome.CutAt (n : Nat) (reason : String) (whole cut : Outcome) : Prop where
  written : cut.written = whole.written.take n
  failure : cut.failure
    = if n < whole.written.length then some (.stream reason) else whole.failure

/-- What fits into the room comes before the cut. -/
theorem Outcome.CutAt.followedBy {n left : Nat} {reason : String} {whole cut : Outcome}
    {bytes : List UInt8} (hn : n = bytes.length + left) (events : List Event)
    (h : CutAt left reason whole cut) :
    CutAt n reason (Outcome.followedBy ⟨bytes, events, none⟩ whole)
      (Outcome.followedBy ⟨bytes, events, none⟩ cut) := by
  subst hn
  constructor
  · show bytes ++ cut.written = (bytes ++ whole.written).take (bytes.length + left)
    rw [h.written, List.take_length_add_append]
  · show cut.failure
      = if bytes.length + left < (bytes ++ whole.written).length then _ else whole.failure
    simp only [h.failure, List.length_append, Nat.add_lt_add_iff_left]

/-- A write that does not fit is cut itself, whatever would have come after it. -/
theorem Outcome.CutAt.of_length_lt {n : Nat} {bytes : List UInt8} (hn : n < bytes.length)
    (reason : String) (whole : Outcome) :
    CutAt n reason (Outcome.followedBy ⟨bytes, [], none⟩ whole)
      ⟨bytes.take n, [], some (.stream reason)⟩ := by
  constructor
  · exact (List.take_append_of_le_length hn.le).symm
  · have hlength : n < (bytes ++ whole.written).length := by
      rw [List.length_append]
      omega
    exact (if_pos hlength).symm

namespace Sink

/-- **Limited room cuts what a run writes, and alters nothing before the cut.** -/
theorem cutAt_perform (n : Nat) (reason : String) (flushes : Option Limit) (r : Run) :
    Outcome.CutAt n reason (perform ⟨none, flushes⟩ r) (perform ⟨some ⟨n, reason⟩, flushes⟩ r) := by
  obtain ⟨effects, ending⟩ := r
  show Outcome.CutAt n reason (deliverAll ending _ effects) (deliverAll ending _ effects)
  induction effects generalizing n flushes with
  | nil => exact ⟨List.take_nil.symm, rfl⟩
  | cons e effects ih =>
      cases e with
      | write text =>
          by_cases hroom : n < (Utf8.bytes text).length
          · have hcut := Outcome.CutAt.of_length_lt hroom reason
              (deliverAll ending ⟨none, flushes⟩ effects)
            simpa only [deliverAll, deliver, write, if_pos hroom] using hcut
          · have hrest := (ih (n - (Utf8.bytes text).length) flushes).followedBy
              (Nat.add_sub_of_le (Nat.not_lt.1 hroom)).symm []
            simpa only [deliverAll, deliver, write, if_neg hroom] using hrest
      | flush =>
          rcases flushes with _ | ⟨_ | left, refusal⟩
          · exact (ih n none).followedBy (Nat.zero_add n).symm []
          · exact ⟨List.take_nil.symm, rfl⟩
          · exact (ih n (some ⟨left, refusal⟩)).followedBy (Nat.zero_add n).symm []
      | log event => exact (ih n flushes).followedBy (Nat.zero_add n).symm [event]

end Sink

/-! ### Limited flushes -/

/-- What has been written at each flush. -/
def flushPoints : List Effect → List String
  | [] => []
  | .write text :: effects => (flushPoints effects).map (text ++ ·)
  | .flush :: effects => "" :: flushPoints effects
  | .log _ :: effects => flushPoints effects

theorem flushPoints_append (es fs : List Effect) :
    flushPoints (es ++ fs) = flushPoints es ++ (flushPoints fs).map (written es ++ ·) := by
  induction es with
  | nil => simp [flushPoints]
  | cons e es ih => cases e <;> simp [flushPoints, ih, String.append_assoc, Function.comp_def]

/-- **A sink that refuses to flush has taken what was written until then.**  If the run
flushes no more often than the sink is willing to, nothing happens to it. -/
theorem Sink.perform_flushes (n : Nat) (reason : String) (r : Run) :
    match (flushPoints r.effects)[n]? with
    | some begun =>
      (perform ⟨none, some ⟨n, reason⟩⟩ r).written = Utf8.bytes begun
        ∧ (perform ⟨none, some ⟨n, reason⟩⟩ r).failure = some (.stream reason)
    | none =>
      (perform ⟨none, some ⟨n, reason⟩⟩ r).written = Utf8.bytes (written r.effects)
        ∧ (perform ⟨none, some ⟨n, reason⟩⟩ r).failure = r.failure := by
  obtain ⟨effects, ending⟩ := r
  simp only [perform]
  induction effects generalizing n with
  | nil => exact ⟨rfl, rfl⟩
  | cons e effects ih =>
      cases e with
      | write text =>
          have hrest := ih n
          rw [flushPoints, List.getElem?_map, written_write]
          cases hbegun : (flushPoints effects)[n]? with
          | none =>
              rw [hbegun] at hrest
              exact ⟨by rw [Utf8.bytes_append, ← hrest.1]; rfl, hrest.2⟩
          | some begun =>
              rw [hbegun] at hrest
              exact ⟨by rw [Utf8.bytes_append, ← hrest.1]; rfl, hrest.2⟩
      | flush =>
          cases n with
          | zero => exact ⟨rfl, rfl⟩
          | succ n => exact ih n
      | log event => exact ih n

end MonkeyTokens
