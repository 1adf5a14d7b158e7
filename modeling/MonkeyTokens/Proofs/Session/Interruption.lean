/-
What a session has written when its reading fails.

A session asks before it reads.  When a reading fails after some complete lines, these lines
have been answered and one more prompt has been written, and nothing comes after it: the
lines that still wait are not printed, as they would be at the end of the stream.  So what
is written is what the session writes for the complete lines alone, up to its last prompt.

The last prompt is told from the text (`promptEnds`), and it is where the session flushes
last (`getLast?_flushPoints`).
-/
import MonkeyTokens.Proofs.Session.Prompts
import MonkeyTokens.Proofs.Session.Reading

namespace MonkeyTokens

/-! ### The last flush -/

theorem flushPoints_eq_nil {effects : List Effect} (h : Effect.flush ∉ effects) :
    flushPoints effects = [] := by
  induction effects with
  | nil => rfl
  | cons e effects ih =>
      rw [List.mem_cons, not_or] at h
      have hrest := ih h.2
      cases e with
      | write text => rw [flushPoints, hrest, List.map_nil]
      | flush => exact absurd rfl h.1
      | log event => rw [flushPoints, hrest]

namespace Session

/-- Events and lines of tokens are not flushed. -/
theorem flush_notMem_printTokens (source : String) : Effect.flush ∉ printTokens source := by
  unfold printTokens Span.logs
  rw [List.mem_flatMap]
  intro hex
  obtain ⟨s, -, hs⟩ := hex
  by_cases hend : s.token.isEof = true
  · simp [hend] at hs
  · simp [hend] at hs

theorem flush_notMem_finish (s : Session) : Effect.flush ∉ s.finish := by
  unfold finish
  by_cases hempty : s.pending.isEmpty = true
  · simp [hempty]
  · simp [hempty, flush_notMem_printTokens]

/-- Where a prompt is the last that is written before effects that do not flush, it is there
that flushing happens last. -/
theorem getLast?_flushPoints (done : List Effect) (s : Session) {rest : List Effect}
    (h : Effect.flush ∉ rest) :
    (flushPoints (done ++ (s.ask ++ rest))).getLast? = some (written (done ++ s.ask)) := by
  have hask : flushPoints s.ask = [written s.ask] := by
    simp [ask, flushPoints]
  rw [flushPoints_append, flushPoints_append, flushPoints_eq_nil h, hask, written_append]
  simp

/-! ### The session up to a failure -/

/-- What is written for the lines of a text, up to and including the prompt after the last. -/
theorem written_answers_ask (text : String) :
    written (fresh.answers (textLines text) ++ (fresh.past (textLines text)).ask)
      = .join ((blocks [] (textLines text)).1.map blockText)
        ++ prompts ((blocks [] (textLines text)).2.length + 1) := by
  have hlined : Lined ([] ++ textLines text) := lined_textLines text
  have htail := lined_tail hlined
  have hanswers := written_answers [] hlined
  rw [waiting_nil, List.length_nil, prompts, String.empty_append] at hanswers
  have hpast := past_waiting [] hlined
  rw [waiting_nil] at hpast
  rw [written_append, hanswers, hpast, prompts_succ htail, ← String.append_assoc]
  simp [ask]

/-- Where a reading fails, a session has answered the complete lines and asked once more. -/
theorem run_failsAfter {input : Input} {before : String} {failure : Failure}
    (h : input.FailsAfter before failure) :
    run input = ⟨fresh.answers (textLines before) ++ (fresh.past (textLines before)).ask,
      some failure⟩ := by
  rw [run, h.lines_eq, converse_textLines]
  rfl

/-- **A session fails exactly where its stream breaks or is no text**, and then it has written
what it writes for the complete lines before the failure, up to its last prompt.

All blocks of these lines are in it, and of the lines that wait only the prompts.  What comes
after these lines in the stream makes no difference to it. -/
theorem run_interrupted (input : Input) :
    ((Sink.unbounded.perform (run input)).failure = none ↔ input.Readable)
      ∧ (¬ input.Readable → ∃ before failure, input.FailsAfter before failure
        ∧ (∀ before' failure', input.FailsAfter before' failure' →
            before' = before ∧ failure' = failure)
        ∧ (Sink.unbounded.perform (run input)).failure = some failure
        ∧ (∃ whole cut,
            (Sink.unbounded.perform (run ⟨Utf8.bytes before, none⟩)).written = Utf8.bytes whole
            ∧ (promptEnds whole).getLast? = some cut
            ∧ (Sink.unbounded.perform (run input)).written = Utf8.bytes cut
            ∧ cut = .join ((blocks [] (textLines before)).1.map blockText)
                ++ prompts ((blocks [] (textLines before)).2.length + 1))
        ∧ ∀ input' failure', input'.FailsAfter before failure' →
            (Sink.unbounded.perform (run input')).written
              = (Sink.unbounded.perform (run input)).written) := by
  have hends : ∀ text, promptEnds (written (run ⟨Utf8.bytes text, none⟩).effects)
      = flushPoints (run ⟨Utf8.bytes text, none⟩).effects := by
    intro text
    exact (flushesAfterPrompts_converse _ _ _).promptEnds_written
  simp only [Sink.perform_unbounded_eq]
  refine ⟨?_, ?_⟩
  · rw [run, failure_converse]
    exact Input.snd_lines_eq_none_iff
  · intro hnot
    obtain ⟨before, failure, hfails⟩ := input.readable_or_failsAfter.resolve_left hnot
    refine ⟨before, failure, hfails, fun _ _ h' => hfails.unique h', ?_, ?_, ?_⟩
    · rw [run_failsAfter hfails]
    · refine ⟨_, _, rfl, ?_, ?_, written_answers_ask before⟩
      · rw [hends, run_bytes_eq]
        exact getLast?_flushPoints _ _ (flush_notMem_finish _)
      · rw [run_failsAfter hfails]
    · intro input' failure' hfails'
      rw [run_failsAfter hfails, run_failsAfter hfails']

/-- The line after an open bracket is no text. -/
example : (Sink.unbounded.perform (run ⟨[0x28, 0x0A, 0xFF, 0x0A, 0x29], none⟩)).written
    = Utf8.bytes ">> .. " := by
  decide +kernel

end Session

end MonkeyTokens
