/-
A listing and a session show the same tokens.

A listing takes a file apart as a whole.  A session takes the same bytes line by line and
block by block, and puts prompts in between.  Neither fails where the other succeeds, and
without the prompts the session has the token lines of the listing.

Prompts are told from token lines by how a line begins: the name of a kind begins with a
letter.  `Erases` says what becomes of a part of a transcript, and parts are put together
with `Erases.append`.
-/
import MonkeyTokens.Listing
import MonkeyTokens.Proofs.Rendered
import MonkeyTokens.Proofs.Session.Reading
import MonkeyTokens.Proofs.Session.Transcript

namespace MonkeyTokens

/-! ### Bytes that are text -/

/-- A session reads the bytes of texts to the end, and no others. -/
theorem Session.failure_run_eq_none_iff {data : List UInt8} :
    (run ⟨data, none⟩).failure = none ↔ ∃ text, Utf8.bytes text = data := by
  rw [run, failure_converse, Input.snd_lines_eq_none_iff]
  exact ⟨fun h => h.2, fun h => ⟨rfl, h⟩⟩

namespace Listing

theorem ofFile_bytes {read : FileReader} {path text : String}
    (h : read path = .ok (Utf8.bytes text)) :
    ofFile read path = (ofText path text).after [.log (.sourceRead path text.utf8ByteSize)] := by
  rw [ofFile, readSource, h]
  simp only [Utf8.decode?_bytes]
  rfl

theorem failure_ofFile_eq_none_iff {read : FileReader} {path : String} {data : List UInt8}
    (h : read path = .ok data) :
    (ofFile read path).failure = none ↔ ∃ text, Utf8.bytes text = data := by
  constructor
  · intro hnone
    cases hdecode : Utf8.decode? data with
    | none =>
        rw [ofFile, readSource, h] at hnone
        simp only [hdecode] at hnone
        cases hnone
    | some text => exact ⟨text, Utf8.decode?_eq_some_iff.1 hdecode⟩
  · intro hex
    obtain ⟨text, rfl⟩ := hex
    rw [ofFile_bytes h]
    rfl

/-! ### What a listing says -/

theorem line_eq (t : Token) : line t = "  " ++ Session.line t :=
  String.append_assoc

theorem written_ofText_tokenize (label source : String) :
    written (ofText label source).effects
      = header label (tokenize source).length ++ .join ((tokenize source).map line) := by
  have hlines : ∀ chain : List Span, written (chain.map fun s => .write (line s.token))
      = .join ((chain.map (·.token)).map line) := by
    intro chain
    induction chain with
    | nil => rfl
    | cons s chain ih => simp [ih]
  rw [ofText, tokenize, List.length_map]
  simp only [written_append, written_write, written_flatMap_logs, hlines, String.empty_append]

/-- The last line is that of the end. -/
theorem written_ofText (label source : String) :
    written (ofText label source).effects
      = header label ((tokens source).length + 1)
        ++ .join (((tokens source).map Session.line).map ("  " ++ ·)) ++ line .eof := by
  have hchain : tokenize source = tokens source ++ [.eof] := by
    rw [tokens_eq, tokenize_eq]
  rw [written_ofText_tokenize, hchain, List.length_append, List.length_singleton, List.map_append,
    String.join_append, List.map_map, show line = ("  " ++ ·) ∘ Session.line from funext line_eq]
  simp [String.append_assoc]

end Listing

/-! ### Erasing prompts -/

/-- Erases prompts, and line feeds without a line.  Both stand only where a line begins, which
is what `fresh` says of the first character. -/
def erase : (fresh : Bool) → List Char → List Char
  | true, '>' :: '>' :: ' ' :: cs => erase true cs
  | true, '.' :: '.' :: ' ' :: cs => erase true cs
  | true, '\n' :: cs => erase true cs
  | _, c :: cs => c :: erase (c = '\n') cs
  | _, [] => []

/-- A transcript without its prompts. -/
def withoutPrompts (transcript : String) : String :=
  .ofList (erase true transcript.toList)

/-- Where a line begins, erasing leaves `kept` of `text`, and ends where a line begins. -/
def Erases (text kept : String) : Prop :=
  ∀ cs, erase true (text.toList ++ cs) = kept.toList ++ erase true cs

theorem Erases.empty : Erases "" "" :=
  fun _ => rfl

theorem Erases.append {text kept text' kept' : String} (h : Erases text kept)
    (h' : Erases text' kept') : Erases (text ++ text') (kept ++ kept') := by
  intro cs
  rw [String.toList_append, String.toList_append, List.append_assoc, List.append_assoc, h, h']

theorem Erases.after_prompt {prompt text kept : String} (hprompt : Erases prompt "")
    (h : Erases text kept) : Erases (prompt ++ text) kept := by
  have happend := hprompt.append h
  rwa [String.empty_append] at happend

theorem Erases.join_map {α : Type} {text kept : α → String} {as : List α}
    (h : ∀ a ∈ as, Erases (text a) (kept a)) :
    Erases (.join (as.map text)) (.join (as.map kept)) := by
  induction as with
  | nil => exact .empty
  | cons a as ih =>
      rw [List.forall_mem_cons] at h
      rw [List.map_cons, List.map_cons, String.join_cons, String.join_cons]
      exact h.1.append (ih h.2)

theorem Erases.withoutPrompts_eq {text kept : String} (h : Erases text kept) :
    withoutPrompts text = kept := by
  have hall := h []
  rw [List.append_nil, show erase true [] = [] from rfl, List.append_nil] at hall
  rw [withoutPrompts, hall, String.ofList_toList]

/-- Characters within a line stay, up to and including the line feed. -/
theorem erase_line {body : List Char} (h : '\n' ∉ body) (cs : List Char) :
    erase false (body ++ '\n' :: cs) = body ++ '\n' :: erase true cs := by
  induction body with
  | nil => simp [erase]
  | cons c body ih =>
      rw [List.mem_cons, not_or] at h
      have hc : decide (c = '\n') = false := by simpa using Ne.symm h.1
      rw [List.cons_append, erase, hc, ih h.2, List.cons_append]
      all_goals simp

namespace Session

/-- The line of a token is one line, and begins with a capital letter. -/
theorem toList_line (t : Token) :
    ∃ c body, (line t).toList = c :: body ++ ['\n'] ∧ c.isUpper = true ∧ '\n' ∉ c :: body := by
  obtain ⟨c, body, hrender, hc⟩ := t.exists_isUpper_render
  have hnot := t.newline_notMem_render
  rw [hrender] at hnot
  refine ⟨c, body, ?_, hc, hnot⟩
  rw [line, String.toList_append, hrender]
  rfl

theorem erases_line (t : Token) : Erases (line t) (line t) := by
  intro cs
  obtain ⟨c, body, hline, hc, hnot⟩ := toList_line t
  rw [List.mem_cons, not_or] at hnot
  have hkept : erase true (c :: (body ++ '\n' :: cs)) = c :: erase false (body ++ '\n' :: cs) := by
    rw [erase, decide_eq_false (Ne.symm hnot.1)]
    · rintro cs - rfl
      exact absurd hc (by decide)
    · rintro cs - rfl
      exact absurd hc (by decide)
    · rintro - rfl
      exact absurd hc (by decide)
  rw [hline, List.append_assoc, List.cons_append, List.singleton_append, hkept, erase_line hnot.2]
  simp

theorem erases_tokenLines (source : String) : Erases (tokenLines source) (tokenLines source) :=
  .join_map fun t _ => erases_line t

theorem erases_prompts (n : Nat) : Erases (prompts n) "" := by
  cases n with
  | zero => exact .empty
  | succ n =>
      refine Erases.after_prompt (fun _ => rfl) ?_
      induction n with
      | zero => exact .empty
      | succ n ih =>
          rw [List.replicate_succ, String.join_cons]
          exact Erases.after_prompt (fun _ => rfl) ih

theorem erases_blockText (block : List String) :
    Erases (blockText block) (tokenLines (.join block)) :=
  (erases_prompts block.length).after_prompt (erases_tokenLines (.join block))

theorem erases_tailText (tail : List String) :
    Erases (tailText tail) (tokenLines (.join tail)) := by
  refine (erases_prompts (tail.length + 1)).after_prompt ?_
  by_cases htail : tail = []
  · rw [if_pos htail, htail, String.join_nil, tokenLines_empty]
    exact .empty
  · rw [if_neg htail]
    exact Erases.after_prompt (fun _ => rfl) (erases_tokenLines (.join tail))

/-! ### No token is lost between blocks -/

theorem tokens_join_append {before lines : List String} (h : Lined (before ++ lines)) :
    tokens (.join (before ++ lines)) = tokens (.join before) ++ tokens (.join lines) := by
  rw [String.join_append]
  cases lines with
  | nil => simp [tokens_eq]
  | cons line lines => exact tokens_append_line h.getLast?_join

/-- **However lines are put into groups, the groups have the tokens of the whole.** -/
theorem tokens_flatten {groups : List (List String)} {tail : List String}
    (h : Lined (groups.flatten ++ tail)) :
    tokens (.join (groups.flatten ++ tail))
      = (groups.map fun group => tokens (.join group)).flatten ++ tokens (.join tail) := by
  induction groups with
  | nil => simp
  | cons group groups ih =>
      rw [List.flatten_cons, List.append_assoc] at h ⊢
      rw [tokens_join_append h, ih h.of_append, List.map_cons, List.flatten_cons,
        List.append_assoc]

theorem tokenLines_flatten {groups : List (List String)} {tail : List String}
    (h : Lined (groups.flatten ++ tail)) :
    tokenLines (.join (groups.flatten ++ tail))
      = .join (groups.map fun group => tokenLines (.join group)) ++ tokenLines (.join tail) := by
  unfold tokenLines
  rw [tokens_flatten h, List.map_append, String.join_append, List.map_flatten, join_flatten,
    List.map_map, List.map_map]
  rfl

/-- **Without its prompts a transcript has the lines of the tokens of the whole text.** -/
theorem withoutPrompts_transcript {lines : List String} (h : Lined lines) :
    withoutPrompts (transcript lines) = tokenLines (.join lines) := by
  have hflatten : (blocks [] lines).1.flatten ++ (blocks [] lines).2 = lines :=
    flatten_blocks [] lines
  have herases : Erases (transcript lines)
      (.join ((blocks [] lines).1.map fun block => tokenLines (.join block))
        ++ tokenLines (.join (blocks [] lines).2)) :=
    (Erases.join_map fun block _ => erases_blockText block).append (erases_tailText _)
  rw [herases.withoutPrompts_eq, ← tokenLines_flatten (by rwa [hflatten]), hflatten]

end Session

/-- **A listing and a session fail for the same bytes**, those that are no text.  Where neither
fails, what the session writes between prompts are the lines of the listing without their
indentation, its header and its last line. -/
theorem listing_agrees_with_session {read : FileReader} {path : String} {data : List UInt8}
    (h : read path = .ok data) :
    ((Sink.unbounded.perform (Listing.ofFile read path)).failure = none
        ↔ (Sink.unbounded.perform (Session.run ⟨data, none⟩)).failure = none)
      ∧ ((Sink.unbounded.perform (Listing.ofFile read path)).failure = none
        ↔ ∃ text, Utf8.bytes text = data)
      ∧ ∀ text, Utf8.bytes text = data → ∃ lines transcript,
        (Sink.unbounded.perform (Listing.ofFile read path)).written
            = Utf8.bytes (Listing.header path (lines.length + 1)
                ++ .join (lines.map ("  " ++ ·)) ++ Listing.line .eof)
          ∧ (Sink.unbounded.perform (Session.run ⟨data, none⟩)).written = Utf8.bytes transcript
          ∧ withoutPrompts transcript = .join lines
          ∧ lines = (tokens text).map Session.line
          ∧ ∀ line ∈ lines, ∃ body, line = body ++ "\n" ∧ '\n' ∉ body.toList := by
  obtain ⟨hlisting, hlistingFailure⟩ := Sink.perform_unbounded (Listing.ofFile read path)
  obtain ⟨hsession, hsessionFailure⟩ := Sink.perform_unbounded (Session.run ⟨data, none⟩)
  rw [hlisting, hlistingFailure, hsession, hsessionFailure, Session.failure_run_eq_none_iff,
    Listing.failure_ofFile_eq_none_iff h]
  refine ⟨Iff.rfl, Iff.rfl, ?_⟩
  intro text htext
  subst htext
  refine ⟨(tokens text).map Session.line, Session.transcript (textLines text), ?_, ?_, ?_, rfl, ?_⟩
  · rw [Listing.ofFile_bytes h, Run.after, List.singleton_append, written_log,
      Listing.written_ofText, List.length_map]
  · rw [Session.written_run]
  · rw [Session.withoutPrompts_transcript (lined_textLines text), join_textLines]
    rfl
  · intro line hline
    obtain ⟨t, -, rfl⟩ := List.mem_map.1 hline
    obtain ⟨c, body, hline, -, hnot⟩ := Session.toList_line t
    refine ⟨.ofList (c :: body), ?_, by rwa [String.toList_ofList]⟩
    rw [← String.toList_inj, hline]
    simp

/-- A file of two lines, with a bracket that is never closed. -/
theorem listing_agrees_with_session_open_bracket :
    ∃ lines transcript,
      (Sink.unbounded.perform
          (Listing.ofFile (fun _ => .ok (Utf8.bytes "(let\nx")) "open.monkey")).written
        = Utf8.bytes (Listing.header "open.monkey" (lines.length + 1)
            ++ .join (lines.map ("  " ++ ·)) ++ Listing.line .eof)
      ∧ (Sink.unbounded.perform (Session.run ⟨Utf8.bytes "(let\nx", none⟩)).written
        = Utf8.bytes transcript
      ∧ withoutPrompts transcript = .join lines
      ∧ lines = (tokens "(let\nx").map Session.line
      ∧ ∀ line ∈ lines, ∃ body, line = body ++ "\n" ∧ '\n' ∉ body.toList :=
  (@listing_agrees_with_session (fun _ => .ok (Utf8.bytes "(let\nx")) "open.monkey" _
    rfl).2.2 "(let\nx" rfl

end MonkeyTokens
