/-
A session after a block that has settled.

A session keeps three things between two lines: the text that waits, the brackets of this
text, and the fault among them.  All three are gone once nothing waits, whatever lines came
before and however their last block ended (`past_eq_fresh`).  So what follows is answered
as if the session had just begun, and the events of it too are the same: their offsets and
sizes count from the beginning of a line or of a block.
-/
import MonkeyTokens.Proofs.Session.Reading
import MonkeyTokens.Proofs.Session.Transcript

namespace MonkeyTokens

namespace Session

/-- **Where no text waits, nothing else does.** -/
theorem past_eq_fresh {text : String} (h : (fresh.past (textLines text)).pending = "") :
    fresh.past (textLines text) = fresh := by
  have hlined : Lined ([] ++ textLines text) := lined_textLines text
  rcases faithful_past hlined with hfresh | ⟨hpending, -⟩
  · exact hfresh
  · exact absurd h hpending

/-- What comes after complete lines is taken by the session that these lines leave. -/
theorem run_append {x : String} (hx : LineEnded x) (y : Input) :
    run ⟨Utf8.bytes x ++ y.bytes, y.fault⟩
      = ((fresh.past (textLines x)).converse y.lines.1 y.lines.2).after
          (fresh.answers (textLines x)) := by
  rw [run, Input.lines_append hx, converse_append_eq]

/-- **A settled session does not remember.**  After complete lines that leave nothing waiting,
a session goes on as it would have begun: it writes what it writes for the rest alone, in
place of its last prompt, and ends in the same way, and the events are those of the lines and
then those of the rest. -/
theorem run_append_settled {x : String} (hx : LineEnded x)
    (hsettled : (fresh.past (textLines x)).pending = "") (y : Input) :
    ∃ before,
      (Sink.unbounded.perform (run ⟨Utf8.bytes x, none⟩)).written = Utf8.bytes (before ++ ">> ")
      ∧ (Sink.unbounded.perform (run ⟨Utf8.bytes x ++ y.bytes, y.fault⟩)).written
        = Utf8.bytes before ++ (Sink.unbounded.perform (run y)).written
      ∧ (Sink.unbounded.perform (run ⟨Utf8.bytes x ++ y.bytes, y.fault⟩)).failure
        = (Sink.unbounded.perform (run y)).failure
      ∧ (Sink.unbounded.perform (run ⟨Utf8.bytes x ++ y.bytes, y.fault⟩)).events
        = (Sink.unbounded.perform (run ⟨Utf8.bytes x, none⟩)).events
          ++ (Sink.unbounded.perform (run y)).events := by
  have hfresh := past_eq_fresh hsettled
  have halone : run ⟨Utf8.bytes x, none⟩
      = ⟨fresh.answers (textLines x) ++ [.write ">> ", .flush], none⟩ := by
    have happend := run_append hx ⟨[], none⟩
    rw [List.append_nil, hfresh] at happend
    exact happend
  have hthen : run ⟨Utf8.bytes x ++ y.bytes, y.fault⟩
      = (run y).after (fresh.answers (textLines x)) := by
    rw [run_append hx, hfresh]
    rfl
  simp only [Sink.perform_unbounded_eq, halone, hthen]
  refine ⟨written (fresh.answers (textLines x)), ?_, ?_, rfl, ?_⟩
  · simp
  · rw [Run.after, written_append, Utf8.bytes_append]
  · rw [Run.after, logged_append, logged_append]
    simp [logged]

/-- Two lines that end in a wrong bracket, and then a line that is no text. -/
theorem run_append_settled_mismatch :
    LineEnded "(\n\x7d\n" ∧ (fresh.past (textLines "(\n\x7d\n")).pending = "" ∧ ∃ before,
      (Sink.unbounded.perform (run ⟨Utf8.bytes "(\n\x7d\n", none⟩)).written
        = Utf8.bytes (before ++ ">> ")
      ∧ (Sink.unbounded.perform (run ⟨Utf8.bytes "(\n\x7d\n" ++ [0x28, 0x0A, 0xFF], none⟩)).written
        = Utf8.bytes before ++ (Sink.unbounded.perform (run ⟨[0x28, 0x0A, 0xFF], none⟩)).written
      ∧ (Sink.unbounded.perform (run ⟨Utf8.bytes "(\n\x7d\n" ++ [0x28, 0x0A, 0xFF], none⟩)).failure
        = (Sink.unbounded.perform (run ⟨[0x28, 0x0A, 0xFF], none⟩)).failure
      ∧ (Sink.unbounded.perform (run ⟨Utf8.bytes "(\n\x7d\n" ++ [0x28, 0x0A, 0xFF], none⟩)).events
        = (Sink.unbounded.perform (run ⟨Utf8.bytes "(\n\x7d\n", none⟩)).events
          ++ (Sink.unbounded.perform (run ⟨[0x28, 0x0A, 0xFF], none⟩)).events := by
  have hended : LineEnded "(\n\x7d\n" := by
    intro c hc
    simpa using hc.symm
  have hsettled : (fresh.past (textLines "(\n\x7d\n")).pending = "" := by
    decide +kernel
  exact ⟨hended, hsettled, run_append_settled hended hsettled ⟨[0x28, 0x0A, 0xFF], none⟩⟩

end Session

end MonkeyTokens
