/-
A session flushes after its prompts, and nowhere else.

The prompts of a transcript can be told from its text alone: they stand where a line
begins, and no line of a token begins like one.  `promptEnds` finds them there, without
looking at the run.  `FlushesAfterPrompts` says that effects flush exactly at these
places, and parts of a session are put together with `FlushesAfterPrompts.append`.

So a sink that refuses to flush cuts the transcript of a session after a prompt, the one
that the number of its flushes tells.
-/
import MonkeyTokens.Proofs.Output.Refusal
import MonkeyTokens.Proofs.Session.Agreement

namespace MonkeyTokens

/-! ### Prompts in a text -/

/-- The beginnings of a text that end with a prompt.  A prompt stands only where a line begins
or right after another prompt, which is what `fresh` says of the first character. -/
def promptCuts : (fresh : Bool) → List Char → List (List Char)
  | true, '>' :: '>' :: ' ' :: cs =>
    ['>', '>', ' '] :: (promptCuts true cs).map (['>', '>', ' '] ++ ·)
  | true, '.' :: '.' :: ' ' :: cs =>
    ['.', '.', ' '] :: (promptCuts true cs).map (['.', '.', ' '] ++ ·)
  | _, c :: cs => (promptCuts (c = '\n') cs).map (c :: ·)
  | _, [] => []

/-- The transcript up to and including each of its prompts. -/
def promptEnds (transcript : String) : List String :=
  (promptCuts true transcript.toList).map .ofList

/-- Characters within a line hold no prompt, up to and including the line feed. -/
theorem promptCuts_line {body : List Char} (h : '\n' ∉ body) (cs : List Char) :
    promptCuts false (body ++ '\n' :: cs)
      = (promptCuts true cs).map (body ++ '\n' :: ·) := by
  induction body with
  | nil => simp [promptCuts]
  | cons c body ih =>
      rw [List.mem_cons, not_or] at h
      have hc : decide (c = '\n') = false := by simpa using Ne.symm h.1
      rw [List.cons_append, promptCuts, hc, ih h.2, List.map_map]
      · rfl
      all_goals simp

/-! ### Flushing after prompts -/

/-- Where a line begins, the effects flush after each prompt that they write, and end where a
line begins. -/
def FlushesAfterPrompts (effects : List Effect) : Prop :=
  ∀ cs, promptCuts true ((written effects).toList ++ cs)
    = (flushPoints effects).map String.toList
      ++ (promptCuts true cs).map ((written effects).toList ++ ·)

namespace FlushesAfterPrompts

theorem append {es fs : List Effect} (hes : FlushesAfterPrompts es)
    (hfs : FlushesAfterPrompts fs) : FlushesAfterPrompts (es ++ fs) := by
  intro cs
  rw [written_append, flushPoints_append, String.toList_append, List.append_assoc, hes, hfs]
  simp [Function.comp_def]

theorem nil : FlushesAfterPrompts [] := by
  intro cs
  simp [flushPoints]

theorem log (event : Event) : FlushesAfterPrompts [.log event] :=
  nil

theorem flatMap {α : Type} {f : α → List Effect} {as : List α}
    (h : ∀ a ∈ as, FlushesAfterPrompts (f a)) : FlushesAfterPrompts (as.flatMap f) := by
  induction as with
  | nil => exact nil
  | cons a as ih =>
      rw [List.forall_mem_cons] at h
      exact h.1.append (ih h.2)

theorem logs (s : Span) : FlushesAfterPrompts s.logs := by
  rw [Span.logs, List.map_eq_flatMap]
  exact flatMap fun event _ => log event

/-- From the beginning of a text on, nothing is left to say of what follows. -/
theorem promptEnds_written {effects : List Effect} (h : FlushesAfterPrompts effects) :
    promptEnds (written effects) = flushPoints effects := by
  have hall := h []
  rw [List.append_nil, show promptCuts true [] = [] from rfl, List.map_nil, List.append_nil] at hall
  rw [promptEnds, hall, List.map_map]
  simp [Function.comp_def]

end FlushesAfterPrompts

namespace Session

theorem flushesAfterPrompts_line (t : Token) : FlushesAfterPrompts [.write (line t)] := by
  intro cs
  obtain ⟨c, body, hline, hc, hnot⟩ := toList_line t
  rw [List.mem_cons, not_or] at hnot
  have hkept : promptCuts true (c :: (body ++ '\n' :: cs))
      = (promptCuts false (body ++ '\n' :: cs)).map (c :: ·) := by
    rw [promptCuts, decide_eq_false (Ne.symm hnot.1)]
    · rintro cs - rfl
      exact absurd hc (by decide)
    · rintro cs - rfl
      exact absurd hc (by decide)
  rw [written_write, written_nil, String.append_empty, hline, List.append_assoc, List.cons_append,
    List.singleton_append, hkept, promptCuts_line hnot.2]
  simp [flushPoints]

theorem flushesAfterPrompts_ask (s : Session) : FlushesAfterPrompts s.ask := by
  intro cs
  rw [ask, prompt]
  cases s.pending.isEmpty <;> simp [flushPoints, promptCuts]

theorem flushesAfterPrompts_printTokens (source : String) :
    FlushesAfterPrompts (printTokens source) := by
  refine .flatMap fun s _ => (FlushesAfterPrompts.logs s).append ?_
  cases s.token.isEof with
  | true => exact .nil
  | false => exact flushesAfterPrompts_line s.token

theorem flushesAfterPrompts_feed (s : Session) (line : String) :
    FlushesAfterPrompts (s.feed line).1 := by
  have hscanned : FlushesAfterPrompts ((spans line).flatMap Span.logs) :=
    .flatMap fun s _ => .logs s
  rw [feed]
  cases (s.brackets.extend (tokens line)).balance.isSettled with
  | true => exact hscanned.append ((FlushesAfterPrompts.log _).append
      (flushesAfterPrompts_printTokens _))
  | false => exact hscanned.append (.log _)

/-- The line feed that comes before the last tokens is a line of its own. -/
theorem flushesAfterPrompts_finish (s : Session) : FlushesAfterPrompts s.finish := by
  have hfeed : FlushesAfterPrompts [.write "\n"] := by
    intro cs
    simp [flushPoints, promptCuts]
  rw [finish]
  cases s.pending.isEmpty with
  | true => exact .nil
  | false => exact hfeed.append (flushesAfterPrompts_printTokens s.pending)

/-- **However the reading ends, a session flushes after each of its prompts and nowhere else.** -/
theorem flushesAfterPrompts_converse (s : Session) (lines : List String)
    (failure : Option Failure) : FlushesAfterPrompts (s.converse lines failure).effects := by
  induction lines generalizing s with
  | nil =>
      cases failure with
      | none => exact (flushesAfterPrompts_ask s).append (flushesAfterPrompts_finish s)
      | some failure => exact flushesAfterPrompts_ask s
  | cons line lines ih =>
      exact ((flushesAfterPrompts_ask s).append (flushesAfterPrompts_feed s line)).append (ih _)

/-- A bracket that is closed on the next line. -/
example : promptEnds (written (run ⟨Utf8.bytes "(\n)", none⟩).effects)
    = [">> ", ">> .. ", ">> .. LPAREN \"(\"\nRPAREN \")\"\n>> "] := by
  decide +kernel

end Session

/-! ### Refusals -/

/-- A file that gives no text gives nothing to write. -/
theorem Listing.ofFile_error {read : FileReader} {path : String} {failure : Failure}
    (h : readSource read path = .error failure) : ofFile read path = ⟨[], some failure⟩ := by
  rw [ofFile]
  simp only [h]
  rfl

/-- **An output that refuses cuts what is written and never alters it.**

Where an output takes `n` bytes and then refuses, a listing or a session has written the first
`n` bytes of what it would have written, and fails with the refusal if there were more.  Where
an output flushes `n` times and then refuses, a session has written its transcript up to and
including the prompt after the first `n`, if there is one.  A file that cannot be read has
nothing written for it, whatever the output is. -/
theorem refusal_cuts_output (read : FileReader) (path label source : String) (input : Input) :
    (∀ run ∈ [Listing.ofText label source, Listing.ofFile read path, Session.run input],
      ∀ n reason flushes, Outcome.CutAt n reason
        (Sink.perform ⟨none, flushes⟩ run) (Sink.perform ⟨some ⟨n, reason⟩, flushes⟩ run))
      ∧ (∃ transcript,
        (Sink.unbounded.perform (Session.run input)).written = Utf8.bytes transcript
          ∧ ∀ n reason,
            (∀ begun, (promptEnds transcript)[n]? = some begun →
              (Sink.perform ⟨none, some ⟨n, reason⟩⟩ (Session.run input)).written
                  = Utf8.bytes begun
                ∧ (Sink.perform ⟨none, some ⟨n, reason⟩⟩ (Session.run input)).failure
                  = some (.stream reason))
            ∧ ((promptEnds transcript).length ≤ n →
              (Sink.perform ⟨none, some ⟨n, reason⟩⟩ (Session.run input)).written
                  = (Sink.unbounded.perform (Session.run input)).written
                ∧ (Sink.perform ⟨none, some ⟨n, reason⟩⟩ (Session.run input)).failure
                  = (Sink.unbounded.perform (Session.run input)).failure))
      ∧ ∀ failure, readSource read path = .error failure →
        ∀ sink : Sink, sink.perform (Listing.ofFile read path) = ⟨[], [], some failure⟩ := by
  refine ⟨?_, ?_, ?_⟩
  · intro run _ n reason flushes
    exact Sink.cutAt_perform n reason flushes run
  · obtain ⟨hwritten, hfailure⟩ := Sink.perform_unbounded (Session.run input)
    have hends : promptEnds (written (Session.run input).effects)
        = flushPoints (Session.run input).effects :=
      (Session.flushesAfterPrompts_converse _ _ _).promptEnds_written
    refine ⟨written (Session.run input).effects, hwritten, ?_⟩
    intro n reason
    have hflushes := Sink.perform_flushes n reason (Session.run input)
    rw [← hends] at hflushes
    refine ⟨?_, ?_⟩
    · intro begun hbegun
      rwa [hbegun] at hflushes
    · intro hlength
      rw [List.getElem?_eq_none hlength] at hflushes
      rwa [hwritten, hfailure]
  · intro failure hread sink
    rw [Listing.ofFile_error hread]
    rfl

end MonkeyTokens
