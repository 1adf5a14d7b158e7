/-
What a session says, from its lines.

A session never scans again what it has scanned: it carries the open brackets from line
to line.  The specification has no such state.  It cuts the lines into blocks, each as
short as it can be, by looking at the whole text of a block for every line of it, and
says what is written for each block.

`waiting` is the session that the lines of an unfinished block amount to, and feeding it
one more line gives what the specification says (`feed_waiting`).  This rests on
`lex_append`: a line feed ends every token.
-/
import MonkeyTokens.Proofs.Session.Lines
import MonkeyTokens.Proofs.Written

namespace MonkeyTokens

namespace Session

/-! ### The specification -/

/-- Where the brackets of these lines stand, taken as one text. -/
def standing (block : List String) : Balance :=
  Balance.ofTokens (tokens (.join block))

/-- Do the brackets of these lines, taken as one text, settle? -/
def settles (block : List String) : Bool :=
  (standing block).isSettled

/-- Cuts lines into blocks, of which the first begins with the lines `before`.  A block goes up
to the first line with which it settles; the lines of the last may never settle. -/
def blocks (before : List String) : List String → List (List String) × List String
  | [] => ([], before)
  | line :: lines =>
    if settles (before ++ [line]) then
      match blocks [] lines with
      | (rest, tail) => ((before ++ [line]) :: rest, tail)
    else
      blocks (before ++ [line]) lines

/-- The prompts for the lines of a block. -/
def prompts : Nat → String
  | 0 => ""
  | n + 1 => ">> " ++ .join (.replicate n ".. ")

/-- What is written for a block. -/
def blockText (block : List String) : String :=
  prompts block.length ++ tokenLines (.join block)

/-- What is written for the lines that never settle, and for the end. -/
def tailText (tail : List String) : String :=
  prompts (tail.length + 1) ++ if tail = [] then "" else "\n" ++ tokenLines (.join tail)

/-- What a session writes for some lines. -/
def transcript (lines : List String) : String :=
  .join ((blocks [] lines).1.map blockText) ++ tailText (blocks [] lines).2

/-! ### A session from its pending lines -/

/-- The session that waits with these lines. -/
def waiting (lines : List String) : Session :=
  ⟨.join lines, BracketStack.empty.extend (tokens (.join lines))⟩

theorem waiting_nil : waiting [] = fresh := by
  rw [waiting, String.join_nil, tokens_empty]
  rfl

/-- No token reaches beyond a line feed. -/
theorem tokens_append_line {text line : String}
    (h : ∀ c ∈ text.toList.getLast?, c = '\n') :
    tokens (text ++ line) = tokens text ++ tokens line := by
  rw [tokens_eq, tokens_eq, tokens_eq, String.toList_append]
  apply lex_append
  intro a ha b _
  rw [h a ha]
  rfl

section Feed

variable {before lines : List String} {line : String}

theorem prompts_succ (h : Lined (before ++ lines)) :
    prompts (before.length + 1) = prompts before.length ++ (waiting before).prompt := by
  have hjoin := h.join_eq_empty_iff
  cases before with
  | nil => rfl
  | cons first before =>
      have hpending : ((waiting (first :: before)).pending).isEmpty = false := by
        rw [Bool.eq_false_iff]
        intro hempty
        exact absurd (hjoin.1 (String.isEmpty_iff.1 hempty)) (by simp)
      rw [prompt, hpending, List.length_cons, prompts, prompts, List.replicate_succ']
      simp [String.append_assoc]

/-- **One more line is scanned by itself, and the pending lines as a whole only when they are
printed.**  Where their brackets stand is what scanning them again would find. -/
theorem feed_waiting_eq (h : Lined (before ++ line :: lines)) :
    (waiting before).feed line
      = if settles (before ++ [line]) then
          ((spans line).flatMap Span.logs
            ++ .log (.settled (standing (before ++ [line]))
                (String.join (before ++ [line])).utf8ByteSize)
              :: printTokens (.join (before ++ [line])), fresh)
        else
          ((spans line).flatMap Span.logs ++ [.log (.waiting (standing (before ++ [line])))],
            waiting (before ++ [line])) := by
  have hjoin : String.join (before ++ [line]) = .join before ++ line := by simp
  have hbrackets : (waiting before).brackets.extend (tokens line)
      = (waiting (before ++ [line])).brackets := by
    rw [waiting, waiting, hjoin, tokens_append_line h.getLast?_join, BracketStack.extend_append]
  have hpending : (waiting before).pending ++ line = (waiting (before ++ [line])).pending :=
    hjoin.symm
  rw [feed]
  simp only [hbrackets, hpending]
  rfl

/-- **One more line does what its block asks for.** -/
theorem feed_waiting (h : Lined (before ++ line :: lines)) :
    ((waiting before).feed line).2
        = (if settles (before ++ [line]) then fresh else waiting (before ++ [line]))
      ∧ written ((waiting before).feed line).1
        = if settles (before ++ [line]) then tokenLines (.join (before ++ [line])) else "" := by
  rw [feed_waiting_eq h]
  cases settles (before ++ [line]) with
  | true => simp [written_printTokens]
  | false => simp

end Feed

/-! ### Blocks -/

theorem blocks_cons_settled {before lines : List String} {line : String}
    (h : settles (before ++ [line]) = true) :
    blocks before (line :: lines)
      = ((before ++ [line]) :: (blocks [] lines).1, (blocks [] lines).2) := by
  rw [blocks, if_pos h]

theorem blocks_cons_waiting {before lines : List String} {line : String}
    (h : settles (before ++ [line]) = false) :
    blocks before (line :: lines) = blocks (before ++ [line]) lines := by
  rw [blocks, if_neg (by simp [h])]

/-- The blocks and the tail are the lines again. -/
theorem flatten_blocks (before lines : List String) :
    (blocks before lines).1.flatten ++ (blocks before lines).2 = before ++ lines := by
  induction lines generalizing before with
  | nil => simp [blocks]
  | cons line lines ih =>
      cases hs : settles (before ++ [line]) with
      | true => rw [blocks_cons_settled hs, List.flatten_cons, List.append_assoc, ih]; simp
      | false => rw [blocks_cons_waiting hs, ih]; simp

/-- A block has a line, that with which it settles. -/
theorem ne_nil_of_mem_blocks {before lines : List String} :
    ∀ block ∈ (blocks before lines).1, block ≠ [] := by
  induction lines generalizing before with
  | nil => simp [blocks]
  | cons line lines ih =>
      cases hs : settles (before ++ [line]) with
      | true =>
          rw [blocks_cons_settled hs, List.forall_mem_cons]
          exact ⟨by simp, ih⟩
      | false =>
          rw [blocks_cons_waiting hs]
          exact ih

theorem lined_tail {before lines : List String} (h : Lined (before ++ lines)) :
    Lined ((blocks before lines).2 ++ []) := by
  rw [← flatten_blocks before lines] at h
  rw [List.append_nil]
  exact h.of_append

/-- The lines at the end, if there are any, do not settle. -/
theorem settles_tail {before : List String} (h : before = [] ∨ settles before = false)
    (lines : List String) :
    (blocks before lines).2 = [] ∨ settles (blocks before lines).2 = false := by
  induction lines generalizing before with
  | nil => exact h
  | cons line lines ih =>
      cases hs : settles (before ++ [line]) with
      | true =>
          rw [blocks_cons_settled hs]
          exact ih (.inl rfl)
      | false =>
          rw [blocks_cons_waiting hs]
          exact ih (.inr hs)

/-! ### The whole session -/

theorem failure_converse (s : Session) (lines : List String) (failure : Option Failure) :
    (s.converse lines failure).failure = failure := by
  induction lines generalizing s with
  | nil => cases failure <;> rfl
  | cons line lines ih => exact ih _

/-- The session after some lines. -/
def past (s : Session) (lines : List String) : Session :=
  lines.foldl (fun s line => (s.feed line).2) s

/-- What a session does about some lines, its prompts for them included. -/
def answers (s : Session) : List String → List Effect
  | [] => []
  | line :: lines => s.ask ++ (s.feed line).1 ++ (s.feed line).2.answers lines

/-- A session goes on with the lines that are left as it stands after those that were taken,
and what it did about these does not depend on what is left. -/
theorem converse_append_eq (s : Session) (taken left : List String) (failure : Option Failure) :
    s.converse (taken ++ left) failure
      = ((s.past taken).converse left failure).after (s.answers taken) := by
  induction taken generalizing s with
  | nil => rfl
  | cons line taken ih =>
      have hrest := ih (s.feed line).2
      rw [List.cons_append, converse]
      simp only [hrest, Run.after, answers, List.append_assoc]
      rfl

/-- A session goes on with the lines that are left as it stands after those that were taken. -/
theorem converse_append (s : Session) (taken left : List String) (failure : Option Failure) :
    ∃ done, s.converse (taken ++ left) failure
      = ((s.past taken).converse left failure).after done :=
  ⟨s.answers taken, converse_append_eq s taken left failure⟩

/-- **Between two lines a session is what its pending lines amount to.** -/
theorem past_waiting (before : List String) {lines : List String}
    (h : Lined (before ++ lines)) :
    (waiting before).past lines = waiting (blocks before lines).2 := by
  induction lines generalizing before with
  | nil => rfl
  | cons line lines ih =>
      rw [past, List.foldl_cons, (feed_waiting h).1]
      cases hs : settles (before ++ [line]) with
      | true =>
          have hrest := ih [] h.of_append_cons
          rw [blocks_cons_settled hs, if_pos rfl, ← hrest, waiting_nil]
          rfl
      | false =>
          have hrest := ih (before ++ [line]) (by rwa [List.append_assoc])
          rw [blocks_cons_waiting hs, if_neg (by simp), ← hrest]
          rfl

/-- **What is done about lines is what the specification says of their blocks**, but for the
prompts that were written for the lines `before`. -/
theorem written_answers (before : List String) {lines : List String}
    (h : Lined (before ++ lines)) :
    prompts before.length ++ written ((waiting before).answers lines)
      = .join ((blocks before lines).1.map blockText)
        ++ prompts (blocks before lines).2.length := by
  induction lines generalizing before with
  | nil => simp [answers, blocks]
  | cons line lines ih =>
      obtain ⟨hnext, hwritten⟩ := feed_waiting h
      rw [answers, written_append, written_append, hnext, hwritten]
      rw [show written (waiting before).ask = (waiting before).prompt by simp [ask],
        ← String.append_assoc, ← String.append_assoc, ← prompts_succ h]
      cases hs : settles (before ++ [line]) with
      | true =>
          have hrest := ih [] h.of_append_cons
          rw [waiting_nil, List.length_nil, prompts, String.empty_append] at hrest
          rw [blocks_cons_settled hs, if_pos rfl, if_pos rfl, hrest, List.map_cons,
            String.join_cons, blockText, List.length_append, List.length_singleton]
          simp only [String.append_assoc]
      | false =>
          have hrest := ih (before ++ [line]) (by rwa [List.append_assoc])
          rw [List.length_append, List.length_singleton] at hrest
          rw [blocks_cons_waiting hs, if_neg (by simp), if_neg (by simp), String.append_empty,
            hrest]

/-- At the end a session prints the lines with which it waits, if there are any. -/
theorem finish_waiting {tail : List String} (h : Lined (tail ++ [])) :
    (waiting tail).finish
      = if tail = [] then [] else .write "\n" :: printTokens (.join tail) := by
  have hempty : (waiting tail).pending.isEmpty = decide (tail = []) := by
    rw [Bool.eq_iff_iff, String.isEmpty_iff, decide_eq_true_eq]
    exact h.join_eq_empty_iff
  rw [finish, hempty]
  simp only [decide_eq_true_eq]
  rfl

theorem written_finish {tail : List String} (h : Lined (tail ++ [])) :
    written (waiting tail).finish
      = if tail = [] then "" else "\n" ++ tokenLines (.join tail) := by
  rw [finish_waiting h]
  by_cases htail : tail = []
  · simp [htail]
  · simp [htail, written_printTokens]

/-- **Where the lines `before` wait, the rest of the session is what the specification says**,
but for the prompts that were written for `before`. -/
theorem written_converse (before : List String) {lines : List String}
    (h : Lined (before ++ lines)) :
    prompts before.length ++ written ((waiting before).converse lines none).effects
      = .join ((blocks before lines).1.map blockText) ++ tailText (blocks before lines).2 := by
  have htail := lined_tail h
  have hsplit := converse_append_eq (waiting before) lines [] none
  rw [List.append_nil, past_waiting before h] at hsplit
  rw [hsplit, Run.after, written_append, ← String.append_assoc, written_answers before h,
    converse, written_append, written_finish htail, tailText, prompts_succ htail]
  simp [ask, String.append_assoc]

/-- What a session may be between two lines: fresh, or waiting with brackets that stand as
scanning the pending lines again would have them stand. -/
def Faithful (s : Session) : Prop :=
  s = fresh
    ∨ s.pending ≠ "" ∧ s.brackets.balance = Balance.ofTokens (tokens s.pending)
      ∧ ∃ openers, s.brackets.balance = .incomplete openers

theorem faithful_past {lines : List String} (h : Lined ([] ++ lines)) :
    (fresh.past lines).Faithful := by
  have hpast : fresh.past lines = waiting (blocks [] lines).2 := by
    rw [← waiting_nil]
    exact past_waiting [] h
  have htail := lined_tail h
  rw [hpast]
  by_cases hnil : (blocks [] lines).2 = []
  · left
    rw [hnil, waiting_nil]
  · right
    refine ⟨fun hempty => hnil (htail.join_eq_empty_iff.1 hempty), rfl, ?_⟩
    rw [← Balance.isSettled_eq_false_iff]
    exact (settles_tail (.inl rfl) lines).resolve_left hnil

theorem run_bytes (text : String) :
    run ⟨Utf8.bytes text, none⟩ = fresh.converse (textLines text) none := by
  rw [run, lines_bytes]

/-- The session on complete lines and what may come after them. -/
theorem converse_textLines (text : String) (failure : Option Failure) :
    fresh.converse (textLines text) failure
      = ((fresh.past (textLines text)).converse [] failure).after
          (fresh.answers (textLines text)) := by
  have hsplit := converse_append_eq fresh (textLines text) [] failure
  rwa [List.append_nil] at hsplit

/-- The session on a text answers its lines, asks once more and finishes. -/
theorem run_bytes_eq (text : String) :
    run ⟨Utf8.bytes text, none⟩
      = ⟨fresh.answers (textLines text) ++ ((fresh.past (textLines text)).ask
          ++ (fresh.past (textLines text)).finish), none⟩ := by
  rw [run_bytes, converse_textLines]
  rfl

theorem written_run (text : String) :
    written (run ⟨Utf8.bytes text, none⟩).effects = transcript (textLines text) := by
  have hlined : Lined ([] ++ textLines text) := lined_textLines text
  have hconverse := written_converse [] hlined
  rw [waiting_nil, List.length_nil, prompts, String.empty_append] at hconverse
  rw [run_bytes, hconverse, transcript]

/-- **A session writes the transcript of the text it reads**, and what it carries from line to
line is what scanning the pending lines again would give. -/
theorem run_transcript (text : String) :
    (Sink.unbounded.perform (run ⟨Utf8.bytes text, none⟩)).failure = none
      ∧ (Sink.unbounded.perform (run ⟨Utf8.bytes text, none⟩)).written
          = Utf8.bytes (transcript (textLines text))
      ∧ ∀ n, (fresh.past ((textLines text).take n)).Faithful
          ∧ ∃ done, run ⟨Utf8.bytes text, none⟩
              = ((fresh.past ((textLines text).take n)).converse ((textLines text).drop n)
                  none).after done := by
  obtain ⟨hwritten, hfailure⟩ := Sink.perform_unbounded (run ⟨Utf8.bytes text, none⟩)
  refine ⟨?_, ?_, fun n => ⟨?_, ?_⟩⟩
  · rw [hfailure, run_bytes, failure_converse]
  · rw [hwritten, written_run]
  · have hlined := lined_textLines text
    rw [← List.take_append_drop n (textLines text)] at hlined
    exact faithful_past hlined.of_append_left
  · have hsplit := List.take_append_drop n (textLines text)
    obtain ⟨done, hdone⟩ := converse_append fresh ((textLines text).take n)
      ((textLines text).drop n) none
    rw [hsplit, ← run_bytes] at hdone
    exact ⟨done, hdone⟩

end Session

end MonkeyTokens
