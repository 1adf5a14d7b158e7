/-
The tokens of two texts, one after the other.

Where no token reaches across the border the tokens are those of the one text and then
those of the other (`lex_append`).  The other case is that of two letters or two digits at
the border.  Then the last token of the one text and the first of the other become one
token, whose text is both of theirs and whose kind is found anew: two names may make a
reserved word, and two reserved words a name.  No other token notices.
-/
import MonkeyTokens.Proofs.Tokenisation
import MonkeyTokens.TokenStream

namespace MonkeyTokens

open Utf8 (lead)
open ByteClass (ofChar)

/-! ### What a stream hands out -/

/-- Draining a stream is asking it for one token after another, until there is none. -/
theorem TokenStream.drain_eq (s : TokenStream) :
    s.drain = match s.next? with
      | (none, rest) => ([], rest)
      | (some t, rest) => (t :: rest.drain.1, rest.drain.2) := by
  have hremaining : s.remaining
      = if s.nextSpan.token.isEof then [s.nextSpan] else s.nextSpan :: s.rest.remaining := by
    unfold remaining
    rw [spansFrom]
    rfl
  unfold drain next?
  rw [hremaining]
  by_cases hend : s.nextSpan.token.isEof = true
  · simp [hend, rest]
  · simp [hend, rest]

/-- The tokens that a stream hands out, from the beginning of a text to its end. -/
def TokenStream.handedOut (source : String) : List Token :=
  (ofText source).drain.1

theorem TokenStream.handedOut_eq (source : String) : handedOut source = lex source.toList :=
  tokens_eq source

/-! ### Letters and digits -/

/-- Is the character a letter, the underscore included? -/
def isLetterChar (c : Char) : Bool :=
  c.isAlpha || c == '_'

theorem isLetterChar_iff {c : Char} : isLetterChar c = true ↔ ofChar c = .letter := by
  by_cases hc : lead c < 0x80
  · have hbyte : isLetter (lead c) = isLetterChar c := by
      unfold isLetter isLetterChar
      rw [Utf8.ofUInt8_lead hc]
    rw [← hbyte, ByteClass.isLetter_eq, decide_eq_true_eq]
    rfl
  · have hstray := isStray_of_not_ascii hc
    refine ⟨fun h => ?_, fun h => absurd (ByteClass.lead_lt_of_ofChar (by simp [h])) hc⟩
    simp [isLetterChar, hstray.not_letter] at h

theorem isDigit_iff_ofChar {c : Char} : c.isDigit = true ↔ ofChar c = .digit := by
  by_cases hc : lead c < 0x80
  · have hbyte : isDigit (lead c) = c.isDigit := by
      unfold isDigit
      rw [Utf8.ofUInt8_lead hc]
    rw [← hbyte, ByteClass.isDigit_eq, decide_eq_true_eq]
    rfl
  · have hstray := isStray_of_not_ascii hc
    refine ⟨fun h => ?_, fun h => absurd (ByteClass.lead_lt_of_ofChar (by simp [h])) hc⟩
    simp [hstray.not_digit] at h

/-- Letters join with letters, digits with digits, and nothing else joins. -/
theorem joins_ofChar_iff {c d : Char} : (ofChar c).joins (ofChar d) = true ↔
    isLetterChar c = true ∧ isLetterChar d = true ∨ c.isDigit = true ∧ d.isDigit = true := by
  rw [isLetterChar_iff, isLetterChar_iff, isDigit_iff_ofChar, isDigit_iff_ofChar]
  cases ofChar c <;> cases ofChar d <;> simp [ByteClass.joins]

/-- Blanks are neither letters nor digits. -/
theorem not_letter_digit_of_blank {c : Char} (h : c ∈ [' ', '\t', '\n', '\r']) :
    isLetterChar c = false ∧ c.isDigit = false := by
  simp only [List.mem_cons, List.not_mem_nil, or_false] at h
  rcases h with rfl | rfl | rfl | rfl <;> decide

/-- Blanks join nothing. -/
theorem isBlankChar_of_joins {c d : Char} (h : (ofChar c).joins (ofChar d) = true) :
    isBlankChar c = false ∧ isBlankChar d = false := by
  rw [Bool.eq_false_iff, Bool.eq_false_iff, ne_eq, ne_eq, isBlankChar_iff, isBlankChar_iff,
    ← ByteClass.eq_of_joins h, and_self]
  intro hblank
  rw [hblank] at h
  cases h

/-! ### A token across the border -/

/-- The token that two tokens of a class make together. -/
def Token.fuse (k : ByteClass) (t u : Token) : Token :=
  ⟨k.kind (t.literal ++ u.literal), t.literal ++ u.literal⟩

/-- A token that reaches the end of a text goes on with a token that its characters join. -/
theorem lex_cons_append_joined {c d : Char} {cs vs : List Char}
    (hrest : (ofChar c).pastRun cs = []) (h : (ofChar c).joins (ofChar d) = true) :
    lex (c :: (cs ++ d :: vs))
      = Token.fuse (ofChar c) (Token.first c cs) (Token.first d vs)
          :: lex ((ofChar d).pastRun vs) := by
  have hclass : ofChar d = ofChar c := (ByteClass.eq_of_joins h).symm
  have hc := (isBlankChar_of_joins h).1
  obtain ⟨hrun, hpast⟩ := ByteClass.run_append_of_pastRun_eq_nil hrest (d :: vs)
  have hrunNext : (ofChar c).run (d :: vs) = d :: (ofChar d).run vs := by
    rw [hclass]
    exact List.takeWhile_cons_of_pos h
  have hpastNext : (ofChar c).pastRun (d :: vs) = (ofChar d).pastRun vs := by
    rw [hclass]
    exact List.dropWhile_cons_of_pos h
  rw [lex, if_neg (by simp [hc]), hpast, hpastNext]
  simp only [Token.first, Token.fuse, hrun, hrunNext, ← String.ofList_append, List.cons_append]

/-- **Where characters join across the border, the tokens next to it become one.** -/
theorem lex_append_joined {us vs : List Char} {a d : Char} (ha : us.getLast? = some a)
    (h : (ofChar a).joins (ofChar d) = true) :
    ∃ before t u after, lex us = before ++ [t] ∧ lex (d :: vs) = u :: after
      ∧ lex (us ++ d :: vs) = before ++ Token.fuse (ofChar a) t u :: after := by
  induction us using scan_induction with
  | blanks gap hgap =>
      have hblank := isBlankChar_iff.1 (hgap a (List.mem_of_getLast? ha))
      rw [hblank] at h
      cases h
  | token gap c cs hgap hc ih =>
      rw [List.append_assoc, List.cons_append, lex_gap hgap, lex_gap hgap]
      rw [List.getLast?_append, List.getLast?_cons, Option.some_or, ← List.getLast?_cons] at ha
      by_cases hrest : (ofChar c).pastRun cs = []
      · -- The last token of the one text reaches its end.
        have hclass : ofChar a = ofChar c := by
          have hrun := (ofChar c).run_append_pastRun cs
          rw [hrest, List.append_nil] at hrun
          rw [← hrun] at ha
          exact ByteClass.ofChar_of_mem_lexeme (List.mem_of_getLast? ha)
        rw [hclass] at h ⊢
        have hd := (isBlankChar_of_joins h).2
        refine ⟨[], Token.first c cs, Token.first d vs, lex ((ofChar d).pastRun vs), ?_, ?_, ?_⟩
        · rw [← List.nil_append (c :: cs), lex_token (by simp) hc, hrest, lex_nil]
          rfl
        · rw [lex, if_neg (by simp [hd])]
        · exact lex_cons_append_joined hrest h
      · obtain ⟨hrun, hpast⟩ := ByteClass.run_append_of_pastRun_ne_nil hrest (d :: vs)
        have hlast : ((ofChar c).pastRun cs).getLast? = some a := by
          rw [← (ofChar c).run_append_pastRun cs, ← List.cons_append, List.getLast?_append] at ha
          rwa [List.getLast?_eq_some_getLast hrest] at ha ⊢
        obtain ⟨before, t, u, after, hus, hvs, happend⟩ := ih hlast
        refine ⟨Token.first c cs :: before, t, u, after, ?_, hvs, ?_⟩
        · rw [lex, if_neg (by simp [hc]), hus, List.cons_append]
        · rw [lex, if_neg (by simp [hc]), hpast, happend, List.cons_append]
          simp only [Token.first, hrun]

/-! ### The law -/

/-- **The tokens of two texts in a row are those of the one and then those of the other**,
unless two letters or two digits meet: then the last token of the one and the first of the
other are read as one. -/
theorem TokenStream.handedOut_append (a b : String) :
    ((∀ c ∈ a.toList.getLast?, ∀ d ∈ b.toList.head?,
        ¬ (isLetterChar c ∧ isLetterChar d) ∧ ¬ (c.isDigit ∧ d.isDigit)) →
      handedOut (a ++ b) = handedOut a ++ handedOut b)
    ∧ (a = "" ∨ b = "" ∨ (∃ c ∈ a.toList.getLast?, c ∈ [' ', '\t', '\n', '\r'])
        ∨ (∃ d ∈ b.toList.head?, d ∈ [' ', '\t', '\n', '\r']) →
      handedOut (a ++ b) = handedOut a ++ handedOut b)
    ∧ ∀ c ∈ a.toList.getLast?, ∀ d ∈ b.toList.head?,
      (isLetterChar c ∧ isLetterChar d → ∃ before t u after,
        handedOut a = before ++ [t] ∧ handedOut b = u :: after
          ∧ handedOut (a ++ b) = before
              ++ ⟨.ofWord (t.literal ++ u.literal), t.literal ++ u.literal⟩ :: after)
      ∧ (c.isDigit ∧ d.isDigit → ∃ before t u after,
        handedOut a = before ++ [t] ∧ handedOut b = u :: after
          ∧ handedOut (a ++ b) = before ++ ⟨.int, t.literal ++ u.literal⟩ :: after) := by
  have hapart : (∀ c ∈ a.toList.getLast?, ∀ d ∈ b.toList.head?,
      ¬ (isLetterChar c ∧ isLetterChar d) ∧ ¬ (c.isDigit ∧ d.isDigit)) →
      handedOut (a ++ b) = handedOut a ++ handedOut b := by
    intro h
    rw [handedOut_eq, handedOut_eq, handedOut_eq, String.toList_append]
    apply lex_append
    intro c hc d hd
    rw [Bool.eq_false_iff, ne_eq, joins_ofChar_iff, not_or]
    exact h c hc d hd
  refine ⟨hapart, ?_, ?_⟩
  · intro h
    refine hapart fun c hc d hd => ?_
    rcases h with rfl | rfl | ⟨c', hc', hblank⟩ | ⟨d', hd', hblank⟩
    · cases hc
    · cases hd
    · obtain rfl := Option.mem_unique hc hc'
      simp [not_letter_digit_of_blank hblank]
    · obtain rfl := Option.mem_unique hd hd'
      simp [not_letter_digit_of_blank hblank]
  · intro c hc d hd
    obtain ⟨vs, hb⟩ := List.head?_eq_some_iff.1 hd
    have hjoined : (ofChar c).joins (ofChar d) = true → ∃ before t u after,
        handedOut a = before ++ [t] ∧ handedOut b = u :: after
          ∧ handedOut (a ++ b) = before ++ Token.fuse (ofChar c) t u :: after := by
      intro h
      rw [handedOut_eq, handedOut_eq, handedOut_eq, String.toList_append, hb]
      exact lex_append_joined hc h
    rw [joins_ofChar_iff] at hjoined
    refine ⟨fun h => ?_, fun h => ?_⟩
    · have := hjoined (.inl h)
      rwa [isLetterChar_iff.1 h.1] at this
    · have := hjoined (.inr h)
      rwa [isDigit_iff_ofChar.1 h.1] at this

/-- Two names that make a reserved word where they meet. -/
example : TokenStream.handedOut ("le" ++ "t x")
    = [⟨.keyword .letWord, "let"⟩, ⟨.ident, "x"⟩] := by
  cbv

end MonkeyTokens
