/-
The chain of scans, said of characters.

A text is blanks and lexemes by turns, and the scans of the chain read one lexeme each.
`lex` lists the tokens of a list of characters in that way, and `tokenize_eq` says that
the chain over the bytes finds the same.

`scan_induction` is the form that the arguments about whole texts have.  The first of
them is `lex_append`: two texts that meet where no token reaches across hold the tokens
of the one and then those of the other.
-/
import MonkeyTokens.Proofs.Lexeme

namespace MonkeyTokens

open Utf8 (lead size encode)
open ByteClass (ofChar)

theorem ByteClass.length_pastRun_le (k : ByteClass) (cs : List Char) :
    (k.pastRun cs).length ≤ cs.length :=
  List.length_dropWhile_le _ cs

/-- Whatever holds of blanks, and of a text if it holds of what its first token leaves, holds
of every text. -/
theorem scan_induction {motive : List Char → Prop}
    (blanks : ∀ gap, (∀ b ∈ gap, isBlankChar b = true) → motive gap)
    (token : ∀ gap c cs, (∀ b ∈ gap, isBlankChar b = true) → isBlankChar c = false →
      motive ((ofChar c).pastRun cs) → motive (gap ++ c :: cs))
    (text : List Char) : motive text := by
  have hsplit := List.takeWhile_append_dropWhile (p := isBlankChar) (l := text)
  have hgap : ∀ b ∈ text.takeWhile isBlankChar, isBlankChar b = true := fun b hb =>
    List.mem_takeWhile_imp hb
  cases hrest : text.dropWhile isBlankChar with
  | nil =>
      rw [hrest, List.append_nil] at hsplit
      rw [← hsplit]
      exact blanks _ hgap
  | cons c cs =>
      have hc : isBlankChar c = false := by
        have hnot := List.head?_dropWhile_not isBlankChar text
        rwa [hrest] at hnot
      -- What the first token leaves is shorter than the text.
      have hlen : ((ofChar c).pastRun cs).length < text.length := by
        have hle := ByteClass.length_pastRun_le (ofChar c) cs
        have hdrop := List.length_dropWhile_le isBlankChar text
        rw [hrest, List.length_cons] at hdrop
        omega
      rw [hrest] at hsplit
      rw [← hsplit]
      exact token _ c cs hgap hc (scan_induction blanks token ((ofChar c).pastRun cs))
termination_by text.length

/-! ### The tokens of a list of characters -/

/-- The tokens of a list of characters, without the end. -/
def lex : List Char → List Token
  | [] => []
  | c :: cs =>
    if isBlankChar c then lex cs else Token.first c cs :: lex ((ofChar c).pastRun cs)
termination_by cs => cs.length
decreasing_by
  · simp
  · exact Nat.lt_succ_of_le (ByteClass.length_pastRun_le _ cs)

@[simp] theorem lex_nil : lex [] = [] := by
  rw [lex]

/-- Blanks at the beginning count for nothing. -/
theorem lex_gap {gap : List Char} (hgap : ∀ b ∈ gap, isBlankChar b = true) (cs : List Char) :
    lex (gap ++ cs) = lex cs := by
  induction gap with
  | nil => rfl
  | cons b gap ih =>
      rw [List.cons_append, lex, if_pos (hgap b (by simp)), ih fun d hd => hgap d (by simp [hd])]

theorem lex_blanks {gap : List Char} (hgap : ∀ b ∈ gap, isBlankChar b = true) : lex gap = [] := by
  rw [← List.append_nil gap, lex_gap hgap, lex_nil]

theorem lex_token {gap : List Char} (hgap : ∀ b ∈ gap, isBlankChar b = true) {c : Char}
    (hc : isBlankChar c = false) (cs : List Char) :
    lex (gap ++ c :: cs) = Token.first c cs :: lex ((ofChar c).pastRun cs) := by
  rw [lex_gap hgap, lex, if_neg (by simp [hc])]

/-- None of these tokens is the end. -/
theorem isEof_of_mem_lex {cs : List Char} : ∀ t ∈ lex cs, t.isEof = false := by
  induction cs using scan_induction with
  | blanks gap hgap => simp [lex_blanks hgap]
  | token gap c cs hgap hc ih =>
      rw [lex_token hgap hc]
      intro t ht
      rcases List.mem_cons.1 ht with rfl | ht
      · exact Token.isEof_first c cs
      · exact ih t ht

/-! ### The chain -/

/-- The chain of scans of what lies ahead. -/
def spansAhead (behind ahead : List Char) : List Span :=
  spansFrom (.ofList (behind ++ ahead)) (size behind)

theorem spansAhead_blanks (us : List Char) {gap : List Char}
    (hgap : ∀ b ∈ gap, isBlankChar b = true) :
    spansAhead us gap = [⟨size us, size (us ++ gap), size (us ++ gap), .eof⟩] := by
  rw [spansAhead, spansFrom, Span.after_blanks hgap]
  rfl

theorem append_lexeme (us gap : List Char) (c : Char) (cs : List Char) :
    us ++ gap ++ c :: (ofChar c).run cs ++ (ofChar c).pastRun cs = us ++ (gap ++ c :: cs) := by
  rw [List.append_assoc, List.cons_append, ByteClass.run_append_pastRun, List.append_assoc]

theorem spansAhead_token (us : List Char) {gap : List Char}
    (hgap : ∀ b ∈ gap, isBlankChar b = true) {c : Char} (hc : isBlankChar c = false)
    (cs : List Char) :
    spansAhead us (gap ++ c :: cs)
      = ⟨size us, size (us ++ gap), size (us ++ gap ++ c :: (ofChar c).run cs),
            Token.first c cs⟩
          :: spansAhead (us ++ gap ++ c :: (ofChar c).run cs) ((ofChar c).pastRun cs) := by
  rw [spansAhead, spansFrom, Span.after_gap hgap hc]
  simp only [Token.isEof_first, Bool.false_eq_true, dif_neg, not_false_eq_true]
  rw [spansAhead, append_lexeme]

/-- The chain finds the tokens of the characters, and then the end. -/
theorem map_token_spansAhead (us cs : List Char) :
    (spansAhead us cs).map (·.token) = lex cs ++ [.eof] := by
  induction cs using scan_induction generalizing us with
  | blanks gap hgap => simp [spansAhead_blanks us hgap, lex_blanks hgap]
  | token gap c cs hgap hc ih => simp [spansAhead_token us hgap hc, lex_token hgap hc, ih]

theorem spans_ofList (cs : List Char) : spans (.ofList cs) = spansAhead [] cs := rfl

theorem tokenize_eq (source : String) : tokenize source = lex source.toList ++ [.eof] := by
  obtain ⟨cs, rfl⟩ := source.exists_eq_ofList
  rw [tokenize, spans_ofList, map_token_spansAhead, String.toList_ofList]

theorem tokens_eq (source : String) : tokens source = lex source.toList := by
  have hall : ∀ t ∈ lex source.toList, (!t.isEof) = true := by
    intro t ht
    simp [isEof_of_mem_lex t ht]
  rw [tokens, tokenize_eq, List.takeWhile_append_of_pos hall]
  simp [Token.isEof, Token.eof]

theorem tokens_empty : tokens "" = [] := by
  simp [tokens_eq]

/-! ### Where texts meet -/

/-- No token reaches from the one text into the other. -/
def Apart (us vs : List Char) : Prop :=
  ∀ a ∈ us.getLast?, ∀ b ∈ vs.head?, (ofChar a).joins (ofChar b) = false

theorem Apart.nil_left (vs : List Char) : Apart [] vs := by
  intro a ha
  simp at ha

/-- Whatever comes before blanks is apart from them. -/
theorem Apart.of_blank {us vs : List Char} (h : ∀ b ∈ vs.head?, isBlankChar b = true) :
    Apart us vs := by
  intro a _ b hb
  rw [isBlankChar_iff.1 (h b hb)]
  cases ofChar a <;> rfl

/-- Texts stay apart where blanks pass from the one to the other. -/
theorem Apart.past_gap {us gap vs : List Char} (h : Apart us (gap ++ vs))
    (hgap : ∀ b ∈ gap, isBlankChar b = true) : Apart (us ++ gap) vs := by
  intro a ha b hb
  rcases List.eq_nil_or_concat gap with rfl | ⟨gap', d, rfl⟩
  · rw [List.append_nil] at ha
    exact h a ha b hb
  · have had : d = a := by simpa using ha
    have hblank := isBlankChar_iff.1 (hgap d (by simp))
    rw [← had, hblank]
    rfl

/-- What a token leaves is apart from it. -/
theorem Apart.past_token (us : List Char) (c : Char) (cs : List Char) :
    Apart (us ++ c :: (ofChar c).run cs) ((ofChar c).pastRun cs) := by
  intro a ha b hb
  have hmem : a ∈ c :: (ofChar c).run cs := by
    refine List.mem_of_getLast? ?_
    rwa [List.getLast?_append, List.getLast?_cons, Option.some_or, ← List.getLast?_cons] at ha
  rw [ByteClass.ofChar_of_mem_lexeme hmem]
  exact ByteClass.joins_of_mem_head? hb

/-- What a text ends with is apart from what the text is apart from. -/
theorem Apart.of_suffix {us ws vs : List Char} (h : Apart ws vs) (hus : us <:+ ws) :
    Apart us vs := by
  obtain ⟨ts, rfl⟩ := hus
  intro a ha b hb
  refine h a ?_ b hb
  rw [List.getLast?_append, Option.mem_def.1 ha]
  rfl

/-- A token does not notice what comes after a place that it does not reach across. -/
theorem run_append {c : Char} {cs vs : List Char} (h : Apart (c :: cs) vs) :
    (ofChar c).run (cs ++ vs) = (ofChar c).run cs
      ∧ (ofChar c).pastRun (cs ++ vs) = (ofChar c).pastRun cs ++ vs := by
  induction cs generalizing c with
  | nil =>
      cases vs with
      | nil => simp [ByteClass.run, ByteClass.pastRun]
      | cons v vs =>
          have hv := h c (by simp) v (by simp)
          simp [ByteClass.run, ByteClass.pastRun, hv]
  | cons d ds ih =>
      by_cases hd : (ofChar c).joins (ofChar d) = true
      · have hih := ih (h.of_suffix (List.suffix_cons c _))
        rw [← ByteClass.eq_of_joins hd] at hih
        simpa [ByteClass.run, ByteClass.pastRun, hd] using hih
      · simp [ByteClass.run, ByteClass.pastRun, hd]

/-- **Texts that meet where no token reaches across have their tokens one after the other.** -/
theorem lex_append {us vs : List Char} (h : Apart us vs) : lex (us ++ vs) = lex us ++ lex vs := by
  induction us using scan_induction with
  | blanks gap hgap => rw [lex_gap hgap, lex_blanks hgap, List.nil_append]
  | token gap c cs hgap hc ih =>
      have hrun := run_append (h.of_suffix (List.suffix_append gap (c :: cs)))
      have hrest : (ofChar c).pastRun cs <:+ gap ++ c :: cs :=
        (List.dropWhile_suffix _).trans ((List.suffix_cons c cs).trans (List.suffix_append gap _))
      have hfirst : Token.first c (cs ++ vs) = Token.first c cs := by
        simp only [Token.first, hrun.1]
      rw [List.append_assoc, List.cons_append, lex_token hgap hc, lex_token hgap hc, hrun.2,
        ih (h.of_suffix hrest), hfirst, List.cons_append]

end MonkeyTokens
