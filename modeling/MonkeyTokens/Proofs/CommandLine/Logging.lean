/-
Watching a command does not change it.

The reports of events stand among the other effects of a run.  A choice of events leaves some
of these reports out, and nothing else: whatever the sink, and wherever it refuses, the same
bytes are taken and the run ends in the same way (`Sink.perform_reporting`).  This is an
induction on the effects: a write or a flush hands over no events, and a report hands over
nothing but its event.

Of a whole command there is left what comes on the standard error.  Each event that is chosen
is one line there, and the complaint of the command, if it has one, comes after all of them.

Nothing is known here of how a logger chooses events and shows them, but for two things: the
finest detail is all of them, and a log line is one line.  `Logger.standard` is such a logger.
-/
import MonkeyTokens.CommandLine
import MonkeyTokens.Proofs.Event.Shown
import MonkeyTokens.Proofs.Written

namespace MonkeyTokens

/-! ### Runs that report less -/

/-- Does the effect stay where only some events are reported? -/
def Effect.stays (keep : Event → Bool) : Effect → Bool
  | .log event => keep event
  | .write _ | .flush => true

/-- The run that reports only the events to keep. -/
def Run.reporting (keep : Event → Bool) (r : Run) : Run :=
  ⟨r.effects.filter (Effect.stays keep), r.failure⟩

/-- What came of a run, with only the events to keep. -/
def Outcome.keeping (keep : Event → Bool) (o : Outcome) : Outcome :=
  { o with events := o.events.filter keep }

theorem Outcome.keeping_followedBy (keep : Event → Bool) (a b : Outcome) :
    (a.followedBy b).keeping keep = (a.keeping keep).followedBy (b.keeping keep) := by
  unfold keeping followedBy
  rw [List.filter_append]

namespace Sink

theorem events_write (s : Sink) (bytes : List UInt8) : (s.write bytes).1.events = [] := by
  unfold write
  rcases s.room with _ | room
  · rfl
  · by_cases hroom : room.left < bytes.length
    · simp only [if_pos hroom]
    · simp only [if_neg hroom]

theorem events_flush (s : Sink) : s.flush.1.events = [] := by
  unfold flush
  rcases s.flushes with _ | ⟨_ | left, reason⟩
  · rfl
  · rfl
  · rfl

variable {keep : Event → Bool} {ending : Option Failure} {effects : List Effect}

/-- A step that hands over no events is the same whatever is kept. -/
theorem deliverAll_keeping {s : Sink} {e : Effect} {rest : List Effect}
    (hevents : (s.deliver e).1.events = [])
    (hrest : (s.deliver e).2.deliverAll ending rest
      = ((s.deliver e).2.deliverAll ending effects).keeping keep) :
    s.deliverAll ending (e :: rest) = (s.deliverAll ending (e :: effects)).keeping keep := by
  have hstep : (s.deliver e).1.keeping keep = (s.deliver e).1 := by
    rw [Outcome.keeping, hevents, List.filter_nil, ← hevents]
  rw [deliverAll, deliverAll]
  cases hfailure : (s.deliver e).1.failure with
  | none => simp only [hfailure, Outcome.keeping_followedBy, hstep, hrest]
  | some failure => simp only [hfailure, hstep]

/-- **Events that are left out take nothing else with them**, whatever the sink refuses. -/
theorem perform_reporting (s : Sink) (keep : Event → Bool) (r : Run) :
    s.perform (r.reporting keep) = (s.perform r).keeping keep := by
  obtain ⟨effects, ending⟩ := r
  show s.deliverAll ending (effects.filter (Effect.stays keep))
    = (s.deliverAll ending effects).keeping keep
  induction effects generalizing s with
  | nil => rfl
  | cons e effects ih =>
      cases e with
      | write text => exact deliverAll_keeping (s.events_write (Utf8.bytes text)) (ih _)
      | flush => exact deliverAll_keeping s.events_flush (ih _)
      | log event =>
          have hreport : ∀ rest, s.deliverAll ending (.log event :: rest)
              = Outcome.followedBy ⟨[], [event], none⟩ (s.deliverAll ending rest) := by
            intro rest
            rfl
          have hstay : (Effect.log event :: effects).filter (Effect.stays keep)
              = if keep event then .log event :: effects.filter (Effect.stays keep)
                else effects.filter (Effect.stays keep) := List.filter_cons
          rw [hreport, Outcome.keeping_followedBy, ← ih, hstay]
          by_cases hkeep : keep event = true
          · rw [if_pos hkeep, hreport, Outcome.keeping, List.filter_cons, if_pos hkeep]
            rfl
          · rw [if_neg hkeep, Outcome.keeping, List.filter_cons, if_neg hkeep]
            rfl

end Sink

namespace CommandLine

/-! ### Reports of a command -/

/-- The report `loud` is the report `quiet` with log lines before the complaint. -/
structure Report.Logs (quiet loud : Report) (lines : List String) : Prop where
  exitCode : loud.exitCode = quiet.exitCode
  stdout : loud.stdout = quiet.stdout
  stderr : loud.stderr = String.join lines ++ quiet.stderr
  single : ∀ line ∈ lines, ∃ body, line = body ++ "\n" ∧ '\n' ∉ body.toList

variable {logger : Logger}

theorem single_of_mem_lines (hline : ∀ e, '\n' ∉ (logger.line e).toList) {choice : Option String}
    {events : List Event} {line : String} (h : line ∈ logger.lines choice events) :
    ∃ body, line = body ++ "\n" ∧ '\n' ∉ body.toList := by
  cases choice with
  | none => cases h
  | some text =>
      obtain ⟨e, -, rfl⟩ := List.mem_map.1 h
      exact ⟨logger.line e, rfl, hline e⟩

/-- The events of a command are known before it is known which of them are shown. -/
theorem logs_reportVia (hline : ∀ e, '\n' ∉ (logger.line e).toList) (arguments : List String)
    (files : FileReader) (input : Input) (text : String) :
    (reportVia logger arguments ⟨files, input, none⟩).Logs
      (reportVia logger arguments ⟨files, input, some text⟩)
      (logger.lines (some text)
        (Sink.unbounded.perform (run ⟨files, input, none⟩ (.ofArguments arguments))).events) := by
  have hrun : run ⟨files, input, some text⟩ = run ⟨files, input, none⟩ := rfl
  have hquiet : ∀ events, String.join (logger.lines none events) = "" := fun _ => rfl
  rw [reportVia_eq, reportVia_eq, hrun]
  refine ⟨rfl, rfl, ?_, fun _ => single_of_mem_lines hline⟩
  simp only [hquiet, String.empty_append]

/-- **Logging changes neither the exit code nor the standard output of a command, and on the
standard error it only puts log lines before the complaint.**

This holds of every logger that shows all events for the finest detail and has one line for each
event that it shows.  Its lines for a choice of events are some of those for the finest detail, in
the same order.  They are those of the run that reports the chosen events alone, which on every
sink has the same bytes taken and ends in the same way. -/
theorem report_logging (logger : Logger) (htrace : ∀ e, logger.shows "trace" e = true)
    (hline : ∀ e, '\n' ∉ (logger.line e).toList) (arguments : List String) (files : FileReader)
    (input : Input) (text : String) : ∃ lines all,
    (reportVia logger arguments ⟨files, input, none⟩).Logs
        (reportVia logger arguments ⟨files, input, some text⟩) lines
    ∧ (reportVia logger arguments ⟨files, input, none⟩).Logs
        (reportVia logger arguments ⟨files, input, some "trace"⟩) all
    ∧ lines.Sublist all
    ∧ (∀ sink : Sink,
        sink.perform ((run ⟨files, input, some text⟩ (.ofArguments arguments)).reporting
            (logger.shows text))
          = (sink.perform (run ⟨files, input, none⟩ (.ofArguments arguments))).keeping
              (logger.shows text))
    ∧ lines = (Sink.unbounded.perform
        ((run ⟨files, input, some text⟩ (.ofArguments arguments)).reporting
          (logger.shows text))).events.map fun e => logger.line e ++ "\n" := by
  have hrun : run ⟨files, input, some text⟩ = run ⟨files, input, none⟩ := rfl
  refine ⟨_, _, logs_reportVia hline arguments files input text,
    logs_reportVia hline arguments files input "trace", ?_, ?_, ?_⟩
  · unfold Logger.lines
    simp only [List.filter_eq_self.2 fun e _ => htrace e]
    exact List.filter_sublist.map _
  · intro sink
    rw [hrun, Sink.perform_reporting]
  · rw [hrun, Sink.perform_reporting]
    rfl

/-- What a session finds whose input breaks after an open bracket. -/
def brokenOff (choice : Option String) : Surroundings :=
  ⟨fun _ => .error .missing, ⟨Utf8.bytes "(\n", some "gone"⟩, choice⟩

/-- The usual log lines are as they have to be, and those of a session that breaks may be limited
to its own events. -/
theorem report_logging_broken_off :
    (∀ e, Logger.standard.shows "trace" e = true)
    ∧ (∀ e, '\n' ∉ (Logger.standard.line e).toList)
    ∧ ∃ lines all,
      (report ["repl"] (brokenOff none)).Logs (report ["repl"] (brokenOff "monkeyc=debug")) lines
      ∧ (report ["repl"] (brokenOff none)).Logs (report ["repl"] (brokenOff "trace")) all
      ∧ lines.Sublist all
      ∧ (∀ sink : Sink,
          sink.perform ((run (brokenOff "monkeyc=debug") .session).reporting
              (Logger.standard.shows "monkeyc=debug"))
            = (sink.perform (run (brokenOff none) .session)).keeping
                (Logger.standard.shows "monkeyc=debug"))
      ∧ lines = (Sink.unbounded.perform
          ((run (brokenOff "monkeyc=debug") .session).reporting
            (Logger.standard.shows "monkeyc=debug"))).events.map fun e => e.render ++ "\n" := by
  have htrace : ∀ e, Logger.standard.shows "trace" e = true := LogFilter.selects_trace
  have hline : ∀ e, '\n' ∉ (Logger.standard.line e).toList := Event.newline_notMem_render
  exact ⟨htrace, hline, report_logging .standard htrace hline ["repl"] (fun _ => .error .missing)
    ⟨Utf8.bytes "(\n", some "gone"⟩ "monkeyc=debug"⟩

end CommandLine

end MonkeyTokens
