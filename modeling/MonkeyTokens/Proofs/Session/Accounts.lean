/-
What a session reports, and how often it scans.

A line is scanned by itself when it comes, and the lines of a block are scanned once more, as
one text, when they are printed.  Nothing else is scanned (`feed_waiting_eq`), so all that a
session reports is known from the blocks of its text (`logged_run`): for each line the events
of its scan and how the brackets of its block stand, and for each block the events of the scan
that prints it.

The numbers follow from this.  A text that is cut after line feeds keeps its tokens, whether it
is cut into lines or into blocks, so every token is scanned twice, and each scan of a text ends
with one report more, that of its end (`sum_countP_scanEvents`).
-/
import Mathlib.Algebra.GroupWithZero.Nat
import Mathlib.Data.List.Infix
import MonkeyTokens.Proofs.Event.Record
import MonkeyTokens.Proofs.Session.Agreement

namespace MonkeyTokens

/-! ### Events of scans -/

/-- Taking a text apart reports scans and illegal characters and nothing else. -/
theorem mem_scanEvents {source : String} {e : Event} (h : e ∈ scanEvents source) :
    (∃ pos literal, e = .illegal pos literal) ∨ ∃ pos next token, e = .scanned pos next token := by
  obtain ⟨s, -, hs⟩ := List.mem_flatMap.1 h
  rw [Span.events, List.mem_append, List.mem_singleton] at hs
  rcases hs with hillegal | hscanned
  · left
    unfold Span.illegalEvents at hillegal
    by_cases hkind : s.token.kind = .illegal
    · rw [if_pos hkind, List.mem_singleton] at hillegal
      exact ⟨_, _, hillegal⟩
    · rw [if_neg hkind] at hillegal
      cases hillegal
  · right
    exact ⟨_, _, _, hscanned⟩

/-- The size of what an event hands on, if it hands something on. -/
def Event.handedOn? : Event → Option Nat
  | .settled _ size => some size
  | .illegal .. | .scanned .. | .sourceRead .. | .waiting .. => none

/-- A choice of events by which one event of a scan is counted for each token of a choice of
tokens, and nothing that a session says of its lines. -/
structure Counts (p : Event → Bool) (q : Token → Bool) : Prop where
  scan : ∀ s : Span, s.events.countP p = if q s.token then 1 else 0
  waiting : ∀ balance, p (.waiting balance) = false
  settled : ∀ balance size, p (.settled balance size) = false

/-- Every scan has its report. -/
theorem counts_scanned : Counts (fun e => e.message = "next_token") fun _ => true := by
  refine ⟨?_, fun _ => rfl, fun _ _ => rfl⟩
  intro s
  unfold Span.events Span.illegalEvents
  by_cases hkind : s.token.kind = .illegal
  · simp [hkind, Event.message]
  · simp [hkind, Event.message]

/-- Every illegal token has a report of its character. -/
theorem counts_illegal :
    Counts (fun e => e.message = "illegal character") fun t => t.kind = .illegal := by
  refine ⟨?_, fun _ => rfl, fun _ _ => rfl⟩
  intro s
  unfold Span.events Span.illegalEvents
  by_cases hkind : s.token.kind = .illegal
  · simp [hkind, Event.message]
  · simp [hkind, Event.message]

section Counts

variable {p : Event → Bool} {q : Token → Bool}

/-- A text is scanned up to its end, so that the end is counted where its token is. -/
theorem Counts.countP_scanEvents (h : Counts p q) (source : String) :
    (scanEvents source).countP p
      = (tokens source).countP q + if q .eof then 1 else 0 := by
  have hchain : (scanEvents source).countP p = (tokenize source).countP q := by
    rw [scanEvents, tokenize]
    induction spans source with
    | nil => rfl
    | cons s chain ih =>
        rw [List.flatMap_cons, List.countP_append, h.scan, ih, List.map_cons, List.countP_cons,
          Nat.add_comm]
  rw [hchain, tokenize_eq, List.countP_append, ← tokens_eq, List.countP_singleton]

end Counts

namespace Session

/-! ### The log of a session -/

/-- The first lines of a block, up to each of its lines. -/
def stages (lines : List String) : List (List String) :=
  lines.inits.tail

theorem stages_concat (lines : List String) (line : String) :
    stages (lines ++ [line]) = stages lines ++ [lines ++ [line]] := by
  have hne : lines.inits ≠ [] := by
    cases lines <;> simp
  rw [stages, List.inits_append, List.tail_append_of_ne_nil hne, stages]
  simp

/-- What is said of lines that wait: how the brackets stand after each of them. -/
def waits (lines : List String) : List Event :=
  (stages lines).map fun before => .waiting (standing before)

/-- What is said of the lines of a block: all wait but the last, which hands on the block. -/
def verdicts (block : List String) : List Event :=
  waits block.dropLast ++ [.settled (standing block) (String.join block).utf8ByteSize]

/-- The events of lines that wait: each is scanned by itself. -/
def waitLog (lines : List String) : List Event :=
  (stages lines).flatMap fun before =>
    scanEvents (before.getLastD "") ++ [.waiting (standing before)]

/-- The events of a block: those of its lines, and those of printing it. -/
def blockLog (block : List String) : List Event :=
  waitLog block.dropLast ++ scanEvents (block.getLastD "")
    ++ .settled (standing block) (String.join block).utf8ByteSize :: scanEvents (.join block)

/-- The events of the lines that never settle, which are printed at the end if there are any. -/
def tailLog (tail : List String) : List Event :=
  waitLog tail ++ if tail = [] then [] else scanEvents (.join tail)

theorem waitLog_concat (lines : List String) (line : String) :
    waitLog (lines ++ [line])
      = waitLog lines ++ (scanEvents line ++ [.waiting (standing (lines ++ [line]))]) := by
  rw [waitLog, stages_concat, List.flatMap_append, ← waitLog]
  simp

theorem blockLog_concat (lines : List String) (line : String) :
    blockLog (lines ++ [line])
      = waitLog lines ++ scanEvents line
        ++ .settled (standing (lines ++ [line])) (String.join (lines ++ [line])).utf8ByteSize
          :: scanEvents (.join (lines ++ [line])) := by
  rw [blockLog, List.dropLast_concat]
  simp

theorem logged_printTokens (source : String) : logged (printTokens source) = scanEvents source := by
  rw [printTokens, scanEvents]
  induction spans source with
  | nil => rfl
  | cons s chain ih =>
      have hline : logged (if s.token.isEof then [] else [.write (line s.token)]) = [] := by
        split <;> rfl
      rw [List.flatMap_cons, logged_append, logged_append, Span.logs, logged_map_log, hline, ih,
        List.append_nil, List.flatMap_cons]

/-- **What is reported of lines is what is said of their blocks**, but for what was reported of
the lines `before`. -/
theorem logged_answers (before : List String) {lines : List String}
    (h : Lined (before ++ lines)) :
    waitLog before ++ logged ((waiting before).answers lines)
      = (blocks before lines).1.flatMap blockLog ++ waitLog (blocks before lines).2 := by
  induction lines generalizing before with
  | nil => simp [answers, blocks, logged]
  | cons line lines ih =>
      have hask : logged (waiting before).ask = [] := rfl
      rw [answers, logged_append, logged_append, hask, List.nil_append, feed_waiting_eq h]
      by_cases hs : settles (before ++ [line]) = true
      · have hrest := ih [] h.of_append_cons
        have hnil : waitLog [] = [] := rfl
        rw [waiting_nil, hnil, List.nil_append] at hrest
        rw [blocks_cons_settled hs, if_pos hs, hrest, List.flatMap_cons, blockLog_concat,
          logged_append, logged_flatMap_logs, logged, logged_printTokens]
        simp only [List.append_assoc, List.cons_append]
        rfl
      · rw [Bool.not_eq_true] at hs
        have hrest := ih (before ++ [line]) (by rwa [List.append_assoc])
        rw [waitLog_concat] at hrest
        rw [blocks_cons_waiting hs, if_neg (by simp [hs]), ← hrest, logged_append,
          logged_flatMap_logs]
        simp only [List.append_assoc]
        rfl

/-- **All that a session reports of a text, block by block.** -/
theorem logged_run (text : String) :
    logged (run ⟨Utf8.bytes text, none⟩).effects
      = (blocks [] (textLines text)).1.flatMap blockLog
        ++ tailLog (blocks [] (textLines text)).2 := by
  have hlined : Lined ([] ++ textLines text) := lined_textLines text
  have hanswers := logged_answers [] hlined
  have hpast := past_waiting [] hlined
  rw [waiting_nil, show waitLog [] = [] from rfl, List.nil_append] at hanswers
  rw [waiting_nil] at hpast
  have hask : ∀ s : Session, logged s.ask = [] := fun _ => rfl
  rw [run_bytes_eq, hpast, finish_waiting (lined_tail hlined), logged_append, logged_append,
    hanswers, hask, List.nil_append, tailLog, List.append_assoc]
  by_cases htail : (blocks [] (textLines text)).2 = []
  · rw [if_pos htail, if_pos htail]
    rfl
  · rw [if_neg htail, if_neg htail, logged, logged_printTokens]

/-! ### What is said of the lines -/

/-- The events that a session itself reports, apart from those of its scans. -/
def said (events : List Event) : List Event :=
  events.filter fun e => e.target = "monkeyc::repl"

theorem said_append (es fs : List Event) : said (es ++ fs) = said es ++ said fs :=
  List.filter_append ..

theorem said_scanEvents (source : String) : said (scanEvents source) = [] := by
  unfold said
  rw [List.filter_eq_nil_iff]
  intro e he
  rcases mem_scanEvents he with ⟨pos, literal, rfl⟩ | ⟨pos, next, token, rfl⟩
  · simp [Event.target]
  · simp [Event.target]

theorem said_waitLog (lines : List String) : said (waitLog lines) = waits lines := by
  have hstage : ∀ before : List String,
      said (scanEvents (before.getLastD "") ++ [.waiting (standing before)])
        = [.waiting (standing before)] := by
    intro before
    rw [said_append, said_scanEvents]
    rfl
  rw [waitLog, waits]
  induction stages lines with
  | nil => rfl
  | cons before stages ih =>
      rw [List.flatMap_cons, said_append, hstage, ih, List.map_cons, List.singleton_append]

theorem said_blockLog (block : List String) : said (blockLog block) = verdicts block := by
  have hsettled : said (.settled (standing block) (String.join block).utf8ByteSize
        :: scanEvents (.join block))
      = [.settled (standing block) (String.join block).utf8ByteSize] := by
    have hscan := said_scanEvents (.join block)
    unfold said at hscan ⊢
    rw [List.filter_cons_of_pos (by rfl), hscan]
  rw [blockLog, said_append, said_append, said_waitLog, said_scanEvents, List.append_nil,
    hsettled, verdicts]

theorem said_tailLog (tail : List String) : said (tailLog tail) = waits tail := by
  rw [tailLog, said_append, said_waitLog]
  by_cases htail : tail = []
  · rw [if_pos htail]
    exact List.append_nil _
  · rw [if_neg htail, said_scanEvents, List.append_nil]

theorem said_flatMap_blockLog (printed : List (List String)) :
    said (printed.flatMap blockLog) = printed.flatMap verdicts := by
  induction printed with
  | nil => rfl
  | cons block printed ih =>
      rw [List.flatMap_cons, said_append, said_blockLog, ih, List.flatMap_cons]

/-- **What a session says of the lines of a text**: how the brackets of their block stand. -/
theorem said_run (text : String) :
    said (logged (run ⟨Utf8.bytes text, none⟩).effects)
      = (blocks [] (textLines text)).1.flatMap verdicts
        ++ waits (blocks [] (textLines text)).2 := by
  rw [logged_run, said_append, said_flatMap_blockLog, said_tailLog]

theorem length_waits (lines : List String) : (waits lines).length = lines.length := by
  simp [waits, stages]

theorem length_verdicts {block : List String} (hne : block ≠ []) :
    (verdicts block).length = block.length := by
  have hpos := List.length_pos_of_ne_nil hne
  rw [verdicts, List.length_append, length_waits, List.length_dropLast, List.length_singleton]
  omega

theorem length_flatMap_verdicts {printed : List (List String)}
    (hne : ∀ block ∈ printed, block ≠ []) :
    (printed.flatMap verdicts).length = printed.flatten.length := by
  induction printed with
  | nil => rfl
  | cons block printed ih =>
      rw [List.forall_mem_cons] at hne
      rw [List.flatMap_cons, List.length_append, length_verdicts hne.1, ih hne.2,
        List.flatten_cons, List.length_append]

/-- **Each line is spoken of once.** -/
theorem length_said_run (text : String) :
    (said (logged (run ⟨Utf8.bytes text, none⟩).effects)).length = (textLines text).length := by
  have hflatten := congrArg List.length (flatten_blocks [] (textLines text))
  rw [List.length_append, List.nil_append] at hflatten
  rw [said_run, List.length_append, length_flatMap_verdicts ne_nil_of_mem_blocks, length_waits, hflatten]

/-! ### Bytes -/

/-- The sizes of what events hand on, in order. -/
theorem filterMap_handedOn?_said (events : List Event) :
    (said events).filterMap Event.handedOn? = events.filterMap Event.handedOn? := by
  rw [said, List.filterMap_filter]
  congr 1
  funext e
  cases e <;> rfl

theorem filterMap_handedOn?_waits (lines : List String) :
    (waits lines).filterMap Event.handedOn? = [] := by
  rw [waits, List.filterMap_map]
  exact List.filterMap_eq_nil_iff.2 fun _ _ => rfl

theorem filterMap_handedOn?_verdicts (block : List String) :
    (verdicts block).filterMap Event.handedOn? = [(String.join block).utf8ByteSize] := by
  rw [verdicts, List.filterMap_append, filterMap_handedOn?_waits]
  rfl

/-- What is handed on are the blocks, whole. -/
theorem filterMap_handedOn?_run (text : String) :
    (logged (run ⟨Utf8.bytes text, none⟩).effects).filterMap Event.handedOn?
      = (blocks [] (textLines text)).1.map fun block => (String.join block).utf8ByteSize := by
  rw [← filterMap_handedOn?_said, said_run, List.filterMap_append, filterMap_handedOn?_waits,
    List.append_nil]
  induction (blocks [] (textLines text)).1 with
  | nil => rfl
  | cons block printed ih =>
      rw [List.flatMap_cons, List.filterMap_append, filterMap_handedOn?_verdicts, ih,
        List.map_cons, List.singleton_append]

/-- Lines in groups have as many bytes as the lines. -/
theorem sum_utf8ByteSize_join (groups : List (List String)) :
    (groups.map fun group => (String.join group).utf8ByteSize).sum
      = (String.join groups.flatten).utf8ByteSize := by
  induction groups with
  | nil => rfl
  | cons group groups ih =>
      rw [List.map_cons, List.sum_cons, ih, List.flatten_cons, String.join_append,
        String.utf8ByteSize_append]

/-! ### Tokens -/

section Counts

variable {p : Event → Bool} {q : Token → Bool}

/-- **Lines in groups have the tokens of the lines**, and as many ends as there are groups. -/
theorem sum_countP_scanEvents (h : Counts p q) {groups : List (List String)}
    (hlined : Lined groups.flatten) :
    (groups.map fun group => (scanEvents (.join group)).countP p).sum
      = (tokens (.join groups.flatten)).countP q
        + groups.length * if q .eof then 1 else 0 := by
  induction groups with
  | nil =>
      rw [List.flatten_nil, String.join_nil, tokens_empty]
      simp
  | cons group groups ih =>
      rw [List.flatten_cons] at hlined
      rw [List.map_cons, List.sum_cons, ih hlined.of_append, h.countP_scanEvents,
        List.flatten_cons, tokens_join_append hlined, List.countP_append, List.length_cons,
        Nat.succ_mul]
      omega

theorem sum_countP_lines (h : Counts p q) {lines : List String} (hlined : Lined lines) :
    (lines.map fun line => (scanEvents line).countP p).sum
      = (tokens (.join lines)).countP q + lines.length * if q .eof then 1 else 0 := by
  have hflatten : (lines.map fun line => [line]).flatten = lines := by
    rw [← List.flatMap_def, List.flatMap_singleton']
  have hsum := sum_countP_scanEvents h (hflatten.symm ▸ hlined)
  rw [hflatten, List.map_map, List.length_map] at hsum
  simpa [Function.comp_def] using hsum

theorem countP_waitLog (h : Counts p q) (lines : List String) :
    (waitLog lines).countP p = (lines.map fun line => (scanEvents line).countP p).sum := by
  induction lines using List.reverseRecOn with
  | nil => rfl
  | append_singleton lines line ih =>
      rw [waitLog_concat, List.countP_append, List.countP_append, List.countP_singleton,
        h.waiting, ih, List.map_append, List.sum_append]
      simp

theorem countP_blockLog (h : Counts p q) {block : List String} (hne : block ≠ []) :
    (blockLog block).countP p
      = (block.map fun line => (scanEvents line).countP p).sum
        + (scanEvents (.join block)).countP p := by
  obtain ⟨lines, line, rfl⟩ := (List.eq_nil_or_concat block).resolve_left hne
  rw [List.concat_eq_append, blockLog_concat, List.countP_append, List.countP_append,
    countP_waitLog h, List.countP_cons, h.settled, List.map_append, List.sum_append]
  simp

theorem countP_flatMap_blockLog (h : Counts p q) {printed : List (List String)}
    (hne : ∀ block ∈ printed, block ≠ []) :
    (printed.flatMap blockLog).countP p
      = (printed.flatten.map fun line => (scanEvents line).countP p).sum
        + (printed.map fun block => (scanEvents (.join block)).countP p).sum := by
  induction printed with
  | nil => rfl
  | cons block printed ih =>
      rw [List.forall_mem_cons] at hne
      rw [List.flatMap_cons, List.countP_append, countP_blockLog h hne.1, ih hne.2,
        List.flatten_cons, List.map_append, List.sum_append, List.map_cons, List.sum_cons]
      omega

/-- **Each token of a text is scanned twice**, and an end is read for each line, for each block
and for the lines that are printed at the end. -/
theorem countP_run (h : Counts p q) (text : String) :
    (logged (run ⟨Utf8.bytes text, none⟩).effects).countP p
      = 2 * (tokens text).countP q
        + ((textLines text).length + (blocks [] (textLines text)).1.length
            + if (blocks [] (textLines text)).2 = [] then 0 else 1)
          * if q .eof then 1 else 0 := by
  have hlined := lined_textLines text
  have hflatten : (blocks [] (textLines text)).1.flatten ++ (blocks [] (textLines text)).2
      = textLines text := flatten_blocks [] (textLines text)
  have hlines := sum_countP_lines h hlined
  rw [← hflatten, List.map_append, List.sum_append, hflatten, join_textLines] at hlines
  rw [logged_run, List.countP_append, countP_flatMap_blockLog h ne_nil_of_mem_blocks, tailLog,
    List.countP_append, countP_waitLog h]
  by_cases htail : (blocks [] (textLines text)).2 = []
  · rw [htail, List.append_nil] at hflatten
    have hblocks := sum_countP_scanEvents h (hflatten.symm ▸ hlined)
    rw [hflatten, join_textLines] at hblocks
    rw [if_pos htail, if_pos htail, List.countP_nil, Nat.add_zero, Nat.add_zero, hblocks,
      Nat.add_mul]
    omega
  · -- What is printed at the end is one more group.
    have hgroups : ((blocks [] (textLines text)).1 ++ [(blocks [] (textLines text)).2]).flatten
        = textLines text := by
      rw [List.flatten_append, List.flatten_singleton, hflatten]
    have hblocks := sum_countP_scanEvents h (hgroups.symm ▸ hlined)
    rw [hgroups, join_textLines, List.map_append, List.sum_append, List.map_singleton,
      List.sum_singleton, List.length_append, List.length_singleton, Nat.add_mul] at hblocks
    rw [if_neg htail, if_neg htail, Nat.add_mul, Nat.add_mul]
    omega

end Counts

/-! ### The accounts -/

/-- **The events of a session account for every line, byte and token of the text that it reads.**

It speaks once of each line: of the last line of a block that it hands on the block, with its
size, and of every other line that it waits, each time with the standing of the whole block up
to that line.  What is handed on and what is left at the end have the bytes of the text.  Each
token is scanned twice, once for the brackets of its line and once to be printed, and so is each
illegal character; and each scan of a line, of a block or of what is left reads one end. -/
theorem run_accounts (text : String) :
    ∃ events printed left,
      (Sink.unbounded.perform (run ⟨Utf8.bytes text, none⟩)).events = events
      ∧ blocks [] (textLines text) = (printed, left)
      ∧ printed.flatten ++ left = textLines text
      ∧ (events.filter fun e => e.target = "monkeyc::repl")
        = printed.flatMap verdicts ++ waits left
      ∧ (events.filter fun e => e.target = "monkeyc::repl").length = (textLines text).length
      ∧ (events.filterMap Event.handedOn?).length = printed.length
      ∧ (events.filterMap Event.handedOn?).sum + (String.join left).utf8ByteSize
        = text.utf8ByteSize
      ∧ events.countP (fun e => e.message = "illegal character")
        = 2 * (tokens text).countP (fun t => t.kind = .illegal)
      ∧ events.countP (fun e => e.message = "next_token")
        = 2 * (tokens text).length + (textLines text).length + printed.length
          + if left = [] then 0 else 1 := by
  have hflatten : (blocks [] (textLines text)).1.flatten ++ (blocks [] (textLines text)).2
      = textLines text := flatten_blocks [] (textLines text)
  refine ⟨logged (run ⟨Utf8.bytes text, none⟩).effects, (blocks [] (textLines text)).1,
    (blocks [] (textLines text)).2, ?_, rfl, hflatten, said_run text, length_said_run text,
    ?_, ?_, ?_, ?_⟩
  · rw [Sink.perform_unbounded_eq]
  · rw [filterMap_handedOn?_run, List.length_map]
  · rw [filterMap_handedOn?_run, sum_utf8ByteSize_join, ← String.utf8ByteSize_append,
      ← String.join_append, hflatten, join_textLines]
  · have heof : ¬ (decide (Token.eof.kind = .illegal) = true) := by decide
    have hcount := countP_run counts_illegal text
    rw [if_neg heof, Nat.mul_zero, Nat.add_zero] at hcount
    exact hcount
  · have hcount := countP_run counts_scanned text
    rw [if_pos (show true = true from rfl), Nat.mul_one, List.countP_true] at hcount
    rw [hcount]
    omega

/-- A block of two lines, and a line that is still open at the end. -/
example : said (Sink.unbounded.perform (run ⟨Utf8.bytes "(\n)\n(x", none⟩)).events
    = [.waiting (.incomplete 1), .settled .complete 4, .waiting (.incomplete 1)] := by
  decide +kernel

end Session

end MonkeyTokens
