/-
What a run writes when nothing refuses it.

On the sink that takes everything the bytes that arrive are those of the texts that the
run writes, one after another, and the run ends as it says.  Flushes and events leave no
trace in what is written, and the events that are reported are those of the run.
-/
import MonkeyTokens.Output.Sink
import MonkeyTokens.Proofs.Chain
import MonkeyTokens.Session.Basic

namespace MonkeyTokens

/-- The texts that effects write, all in one. -/
def written : List Effect → String
  | [] => ""
  | .write text :: effects => text ++ written effects
  | .flush :: effects | .log _ :: effects => written effects

@[simp] theorem written_nil : written [] = "" := rfl

@[simp] theorem written_write (text : String) (effects : List Effect) :
    written (.write text :: effects) = text ++ written effects := rfl

@[simp] theorem written_flush (effects : List Effect) :
    written (.flush :: effects) = written effects := rfl

@[simp] theorem written_log (event : Event) (effects : List Effect) :
    written (.log event :: effects) = written effects := rfl

@[simp] theorem written_append (es fs : List Effect) :
    written (es ++ fs) = written es ++ written fs := by
  induction es with
  | nil => simp
  | cons e es ih => cases e <;> simp [ih, String.append_assoc]

@[simp] theorem written_map_log (events : List Event) : written (events.map .log) = "" := by
  induction events with
  | nil => rfl
  | cons event events ih => simp [ih]

@[simp] theorem written_logs (s : Span) : written s.logs = "" :=
  written_map_log s.events

@[simp] theorem written_flatMap_logs (chain : List Span) :
    written (chain.flatMap Span.logs) = "" := by
  induction chain with
  | nil => rfl
  | cons s chain ih => simp [ih]

/-- The events that effects report. -/
def logged : List Effect → List Event
  | [] => []
  | .log event :: effects => event :: logged effects
  | .write _ :: effects | .flush :: effects => logged effects

theorem logged_append (es fs : List Effect) : logged (es ++ fs) = logged es ++ logged fs := by
  induction es with
  | nil => rfl
  | cons e es ih => cases e <;> simp [logged, ih]

/-- What comes of a run on a sink without limits. -/
theorem Sink.perform_unbounded_eq (r : Run) :
    unbounded.perform r = ⟨Utf8.bytes (written r.effects), logged r.effects, r.failure⟩ := by
  obtain ⟨effects, failure⟩ := r
  rw [perform]
  induction effects with
  | nil => rfl
  | cons e effects ih =>
      cases e <;>
        simp_all [deliverAll, deliver, unbounded, write, flush, Outcome.followedBy, logged]

/-- **Nothing is lost on a sink without limits.** -/
theorem Sink.perform_unbounded (r : Run) :
    (unbounded.perform r).written = Utf8.bytes (written r.effects)
      ∧ (unbounded.perform r).failure = r.failure := by
  rw [perform_unbounded_eq]
  exact ⟨rfl, rfl⟩

/-! ### The lines of tokens -/

/-- The lines of the tokens of a text, all in one. -/
def tokenLines (source : String) : String :=
  .join ((tokens source).map Session.line)

theorem tokenLines_empty : tokenLines "" = "" := by
  rw [tokenLines, tokens_empty]
  rfl

theorem tokens_eq_filter (source : String) :
    tokens source = (tokenize source).filter (!·.isEof) := by
  rw [tokens_eq, tokenize_eq, List.filter_append, List.filter_eq_self.2]
  · simp [Token.isEof, Token.eof]
  · intro t ht
    simp [isEof_of_mem_lex t ht]

theorem Session.written_printTokens (source : String) :
    written (printTokens source) = tokenLines source := by
  rw [tokenLines, tokens_eq_filter, tokenize, printTokens]
  induction spans source with
  | nil => rfl
  | cons s chain ih =>
      rw [List.flatMap_cons, written_append, written_append, written_logs, ih, List.map_cons,
        List.filter_cons]
      cases s.token.isEof <;> simp

end MonkeyTokens
