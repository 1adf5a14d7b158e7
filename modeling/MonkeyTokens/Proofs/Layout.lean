/-
Texts laid out from tokens.

A layout is a list of tokens, each as the language allows it, with blanks around them.  The
blanks may be left out where the tokens could not be read as one, that is between all but two
words or two numbers.  Taking the text of a layout apart gives its tokens, and every text is
that of a layout, so the layouts are what the scanner reads.

All characters of a token have one class, and it settles the kind (`Token.OfClass`).  What
may touch is then a matter of two classes (`canTouch_iff`), and so is whether two texts may
be read one after the other (`Layout.apart_text_iff`).
-/
import Mathlib.Data.List.Chain
import MonkeyTokens.Proofs.Concatenation

namespace MonkeyTokens

open ByteClass (ofChar)

/-! ### Well-formed tokens -/

/-- The tokens that the language allows, the end apart. -/
inductive Token.WellFormed : Token → Prop
  /-- A kind that fixes its text, with this text. -/
  | spelled {kind : Kind} {text : String} (spelling : kind.spelling = some text) :
      WellFormed ⟨kind, text⟩
  | name {text : String} (nonempty : text ≠ "")
      (letters : ∀ c ∈ text.toList, isLetterChar c = true)
      (unreserved : ∀ k : Keyword, text ≠ k.spelling) : WellFormed ⟨.ident, text⟩
  | number {text : String} (nonempty : text ≠ "")
      (digits : ∀ c ∈ text.toList, c.isDigit = true) : WellFormed ⟨.int, text⟩
  | stray {c : Char} (stray : IsStray c) : WellFormed ⟨.illegal, .singleton c⟩

/-- A token that is made of characters of one class and has the kind that goes with it. -/
structure Token.OfClass (k : ByteClass) (t : Token) : Prop where
  not_blank : k ≠ .blank
  chars : ∃ c cs, t.literal.toList = c :: cs ∧ ofChar c = k ∧ ∀ d ∈ cs, k.joins (ofChar d) = true
  kind_eq : t.kind = k.kind t.literal

namespace Token.OfClass

variable {k : ByteClass} {t : Token}

theorem of_letters {text : String} (hne : text ≠ "")
    (h : ∀ c ∈ text.toList, isLetterChar c = true) : OfClass .letter ⟨.ofWord text, text⟩ := by
  obtain ⟨c, cs, hcs⟩ := List.exists_cons_of_ne_nil (mt String.toList_eq_nil_iff.1 hne)
  simp only [hcs, List.forall_mem_cons, isLetterChar_iff] at h
  refine ⟨by simp, ⟨c, cs, hcs, h.1, ?_⟩, rfl⟩
  intro d hd
  rw [h.2 d hd]
  rfl

theorem of_digits {text : String} (hne : text ≠ "")
    (h : ∀ c ∈ text.toList, c.isDigit = true) : OfClass .digit ⟨.int, text⟩ := by
  obtain ⟨c, cs, hcs⟩ := List.exists_cons_of_ne_nil (mt String.toList_eq_nil_iff.1 hne)
  simp only [hcs, List.forall_mem_cons, isDigit_iff_ofChar] at h
  refine ⟨by simp, ⟨c, cs, hcs, h.1, ?_⟩, rfl⟩
  intro d hd
  rw [h.2 d hd]
  rfl

/-- What a scan reads is made of characters of one class. -/
theorem first {c : Char} (hc : isBlankChar c = false) (cs : List Char) :
    OfClass (ofChar c) (Token.first c cs) := by
  refine ⟨?_, ⟨c, (ofChar c).run cs, ?_, rfl, ?_⟩, rfl⟩
  · intro hblank
    rw [isBlankChar_iff.2 hblank] at hc
    cases hc
  · rw [Token.first, String.toList_ofList]
  · intro d hd
    exact ByteClass.joins_of_mem_run hd

theorem ofChar_of_mem (h : OfClass k t) {d : Char} (hd : d ∈ t.literal.toList) : ofChar d = k := by
  obtain ⟨c, cs, hcs, hc, hjoins⟩ := h.chars
  rw [hcs, List.mem_cons] at hd
  rcases hd with rfl | hd
  · exact hc
  · exact (ByteClass.eq_of_joins (hjoins d hd)).symm

/-- Taken alone, such a token is read as it is. -/
theorem lex_literal (h : OfClass k t) : lex t.literal.toList = [t] := by
  obtain ⟨c, cs, hcs, hc, hjoins⟩ := h.chars
  have hblank : isBlankChar c = false := by
    rw [Bool.eq_false_iff, ne_eq, isBlankChar_iff, hc]
    exact h.not_blank
  have hrun : k.run cs = cs := List.takeWhile_eq_self_iff.2 hjoins
  have hpast : k.pastRun cs = [] := List.dropWhile_eq_nil_iff.2 hjoins
  have hfirst : Token.first c cs = t := by
    obtain ⟨kind, literal⟩ := t
    have hliteral : String.ofList (c :: cs) = literal := by
      rw [← show literal.toList = c :: cs from hcs, String.ofList_toList]
    rw [Token.first, hc, hrun, hliteral, show kind = _ from h.kind_eq]
  rw [hcs, lex, if_neg (by simp [hblank]), hc, hpast, lex_nil, hfirst]

end Token.OfClass

/-- A reserved word is a word. -/
theorem Keyword.isLetterChar_spelling (k : Keyword) :
    k.spelling ≠ "" ∧ ∀ c ∈ k.spelling.toList, isLetterChar c = true := by
  rw [← List.all_eq_true]
  cases k <;> decide

/-- **What the language allows is what a scan can read.** -/
theorem Token.wellFormed_iff {t : Token} : t.WellFormed ↔ ∃ k, t.OfClass k := by
  constructor
  · intro h
    cases h with
    | @spelled kind text hspelling =>
        cases kind with
        | punct p =>
            obtain ⟨c, hc, hclass⟩ := ByteClass.toList_spelling p
            obtain rfl := Option.some.inj hspelling
            exact ⟨.punct p, by simp, ⟨c, [], hc, hclass, by simp⟩, rfl⟩
        | keyword k =>
            obtain ⟨hne, hletters⟩ := k.isLetterChar_spelling
            obtain rfl := Option.some.inj hspelling
            have hword : Kind.ofWord k.spelling = .keyword k := by
              rw [Kind.ofWord, Keyword.amongLength?_eq_some_iff.2 rfl]
            rw [← hword]
            exact ⟨.letter, .of_letters hne hletters⟩
        | illegal | eof | ident | int => cases hspelling
    | @name text hne hletters hunreserved =>
        rcases Kind.ofWord_eq text with ⟨k, hk, -⟩ | ⟨-, hword⟩
        · exact absurd hk (hunreserved k)
        · rw [← hword]
          exact ⟨.letter, .of_letters hne hletters⟩
    | number hne hdigits => exact ⟨.digit, .of_digits hne hdigits⟩
    | @stray c hstray =>
        exact ⟨.other, by simp, ⟨c, [], by simp, isStray_iff.1 hstray, by simp⟩, rfl⟩
  · intro hex
    obtain ⟨k, h⟩ := hex
    obtain ⟨c, cs, hcs, hc, hjoins⟩ := h.chars
    obtain ⟨kind, literal⟩ := t
    have hne : literal ≠ "" := by
      intro heq
      subst heq
      cases hcs
    have hclass : ∀ d ∈ literal.toList, ofChar d = k := fun d hd => h.ofChar_of_mem hd
    -- Where nothing joins, the token is its first character.
    have halone : (∀ l, k.joins l = false) → literal = .singleton c := by
      intro hk
      cases cs with
      | nil => rw [← String.toList_inj, String.toList_singleton, ← hcs]
      | cons d cs =>
          have hd := hjoins d (by simp)
          rw [hk] at hd
          cases hd
    rw [show kind = k.kind literal from h.kind_eq]
    cases k with
    | blank => exact absurd rfl h.not_blank
    | punct p =>
        rw [halone fun _ => rfl, ← ByteClass.spelling_of_ofChar hc]
        exact .spelled rfl
    | letter =>
        rcases Kind.ofWord_eq literal with ⟨k, hk, hword⟩ | ⟨hunreserved, hword⟩
        · rw [ByteClass.kind, hword]
          refine .spelled ?_
          rw [hk]
          rfl
        · rw [ByteClass.kind, hword]
          exact .name hne (fun d hd => isLetterChar_iff.2 (hclass d hd)) hunreserved
    | digit => exact .number hne fun d hd => isDigit_iff_ofChar.2 (hclass d hd)
    | other =>
        rw [halone fun _ => rfl]
        exact .stray (isStray_iff.2 hc)

/-! ### Tokens that touch -/

/-- Is this the kind of a run of letters? -/
def Kind.isWord : Kind → Bool
  | .ident | .keyword _ => true
  | .illegal | .eof | .int | .punct _ => false

/-- May the one token follow the other with nothing in between?  Two words may not, and two
numbers may not. -/
def Token.CanTouch (t u : Token) : Prop :=
  ¬ (t.kind.isWord = true ∧ u.kind.isWord = true) ∧ ¬ (t.kind = .int ∧ u.kind = .int)

theorem ByteClass.isWord_kind (k : ByteClass) (literal : String) :
    (k.kind literal).isWord = decide (k = .letter) := by
  cases k with
  | letter =>
      rcases Kind.ofWord_eq literal with ⟨k, -, hword⟩ | ⟨-, hword⟩
      all_goals
        rw [kind, hword]
        rfl
  | _ => rfl

theorem ByteClass.kind_eq_int_iff (k : ByteClass) (literal : String) :
    k.kind literal = .int ↔ k = .digit := by
  cases k with
  | letter =>
      rcases Kind.ofWord_eq literal with ⟨k, -, hword⟩ | ⟨-, hword⟩
      all_goals
        rw [kind, hword]
        simp
  | _ => simp [kind]

/-- Tokens may touch where their characters do not join. -/
theorem Token.OfClass.canTouch_iff {k l : ByteClass} {t u : Token} (ht : t.OfClass k)
    (hu : u.OfClass l) : t.CanTouch u ↔ k.joins l = false := by
  rw [CanTouch, ht.kind_eq, hu.kind_eq, ByteClass.isWord_kind, ByteClass.isWord_kind,
    ByteClass.kind_eq_int_iff, ByteClass.kind_eq_int_iff]
  cases k <;> cases l <;> simp [ByteClass.joins]

/-- Whether tokens may touch is whether they are apart where they do. -/
theorem Token.OfClass.apart_iff {k l : ByteClass} {t u : Token} (ht : t.OfClass k)
    (hu : u.OfClass l) (vs : List Char) :
    Apart t.literal.toList (u.literal.toList ++ vs) ↔ t.CanTouch u := by
  rw [ht.canTouch_iff hu]
  obtain ⟨d, ds, hds, hd, -⟩ := hu.chars
  constructor
  · intro h
    obtain ⟨c, cs, hcs, -⟩ := ht.chars
    have hne : t.literal.toList ≠ [] := by simp [hcs]
    have ha := List.getLast?_eq_some_getLast hne
    have hjoins := h _ ha d (by simp [hds])
    rwa [ht.ofChar_of_mem (List.mem_of_getLast? ha), hd] at hjoins
  · intro hjoins a ha b hb
    have hdb : d = b := by simpa [hds] using hb
    rwa [ht.ofChar_of_mem (List.mem_of_getLast? ha), ← hdb, hd]

/-! ### Layouts -/

/-- Nothing but spaces, tabs, line feeds and carriage returns. -/
def IsGap (text : String) : Prop :=
  ∀ c ∈ text.toList, c ∈ [' ', '\t', '\n', '\r']

theorem isBlankChar_iff_mem {c : Char} :
    isBlankChar c = true ↔ c ∈ [' ', '\t', '\n', '\r'] := by
  by_cases hc : Utf8.lead c < 0x80
  · rw [isBlankChar, isBlank_iff, Utf8.ofUInt8_lead hc]
  · refine ⟨fun h => ?_, fun h => absurd h (isStray_of_not_ascii hc).not_blank⟩
    exact absurd (ByteClass.lead_lt_of_ofChar (by simp [isBlankChar_iff.1 h])) hc

theorem isGap_iff {text : String} : IsGap text ↔ ∀ c ∈ text.toList, isBlankChar c = true := by
  simp only [IsGap, isBlankChar_iff_mem]

/-- A token, and the blanks before it. -/
structure Spaced where
  gap : String
  token : Token
  isGap : IsGap gap
  wellFormed : token.WellFormed

/-- Tokens with the blanks before each and after the last.  The blanks between two tokens may
be left out if the tokens may touch. -/
structure Layout where
  pieces : List Spaced
  /-- The blanks after the last token. -/
  rest : String
  isGap_rest : IsGap rest
  separated : pieces.IsChain fun p q => q.gap = "" → p.token.CanTouch q.token

namespace Layout

/-- The tokens of a layout. -/
def tokens (l : Layout) : List Token :=
  l.pieces.map (·.token)

/-- The text of a layout: blanks and the texts of tokens by turns. -/
def text (l : Layout) : String :=
  .join (l.pieces.map fun p => p.gap ++ p.token.literal) ++ l.rest

/-- A token may come before what it does not join.  This is so if it may touch the first
token there, or if blanks come first. -/
theorem apart_text_iff {k : ByteClass} {t : Token} (ht : t.OfClass k) (l : Layout) :
    Apart t.literal.toList l.text.toList
      ↔ ∀ q ∈ l.pieces.head?, q.gap = "" → t.CanTouch q.token := by
  obtain ⟨pieces, rest, hrest, hsep⟩ := l
  cases pieces with
  | nil =>
      have hapart : Apart t.literal.toList rest.toList :=
        .of_blank fun b hb => isGap_iff.1 hrest b (List.mem_of_mem_head? hb)
      simpa [text] using hapart
  | cons q pieces =>
      by_cases hgap : q.gap = ""
      · obtain ⟨k', hq⟩ := Token.wellFormed_iff.1 q.wellFormed
        simp [text, hgap, ht.apart_iff hq]
      · obtain ⟨b, bs, hbs⟩ := List.exists_cons_of_ne_nil (mt String.toList_eq_nil_iff.1 hgap)
        have hblank := isGap_iff.1 q.isGap b (by simp [hbs])
        have hapart : ∀ vs, Apart t.literal.toList (b :: vs) := by
          intro vs
          refine .of_blank ?_
          simpa using hblank
        simp [text, hgap, hbs, hapart]

/-- A layout with one more token at the beginning. -/
def cons (p : Spaced) (l : Layout)
    (h : ∀ q ∈ l.pieces.head?, q.gap = "" → p.token.CanTouch q.token) : Layout :=
  ⟨p :: l.pieces, l.rest, l.isGap_rest, List.isChain_cons.2 ⟨h, l.separated⟩⟩

theorem text_cons (p : Spaced) (l : Layout)
    (h : ∀ q ∈ l.pieces.head?, q.gap = "" → p.token.CanTouch q.token) :
    (l.cons p h).text = p.gap ++ (p.token.literal ++ l.text) := by
  simp [text, cons, String.append_assoc]

/-- Whatever holds of blanks, and of a layout with one more token if it holds of the layout,
holds of every layout. -/
theorem induction {motive : Layout → Prop}
    (blanks : ∀ rest (h : IsGap rest), motive ⟨[], rest, h, .nil⟩)
    (token : ∀ p l h, motive l → motive (cons p l h)) (l : Layout) : motive l := by
  obtain ⟨pieces, rest, hrest, hsep⟩ := l
  induction pieces with
  | nil => exact blanks rest hrest
  | cons p pieces ih =>
      obtain ⟨hhead, htail⟩ := List.isChain_cons.1 hsep
      exact token p ⟨pieces, rest, hrest, htail⟩ hhead (ih htail)

/-- Taking the text of a layout apart gives its tokens. -/
theorem lex_text (l : Layout) : lex l.text.toList = l.tokens := by
  induction l using Layout.induction with
  | blanks rest hrest => simpa [text, tokens] using lex_blanks (isGap_iff.1 hrest)
  | token p l h ih =>
      obtain ⟨k, hp⟩ := Token.wellFormed_iff.1 p.wellFormed
      have hapart := (apart_text_iff hp l).2 h
      rw [text_cons, String.toList_append, lex_gap (isGap_iff.1 p.isGap), String.toList_append,
        lex_append hapart, hp.lex_literal, ih]
      rfl

/-- Every text is that of a layout. -/
theorem exists_text_eq (cs : List Char) : ∃ l : Layout, l.text = .ofList cs := by
  induction cs using scan_induction with
  | blanks gap hgap =>
      refine ⟨⟨[], .ofList gap, isGap_iff.2 (by simpa using hgap), .nil⟩, ?_⟩
      simp [text]
  | token gap c cs hgap hc ih =>
      obtain ⟨l, hl⟩ := ih
      have hfirst := Token.OfClass.first hc cs
      have hliteral : (Token.first c cs).literal = .ofList (c :: (ofChar c).run cs) := rfl
      have hapart : Apart (Token.first c cs).literal.toList l.text.toList := by
        have hpast := Apart.past_token [] c cs
        rwa [hl, hliteral, String.toList_ofList, String.toList_ofList]
      refine ⟨l.cons ⟨.ofList gap, Token.first c cs, isGap_iff.2 (by simpa using hgap),
        Token.wellFormed_iff.2 ⟨_, hfirst⟩⟩ ((apart_text_iff hfirst l).1 hapart), ?_⟩
      rw [text_cons, hl, hliteral, ← String.ofList_append, ← String.ofList_append,
        List.cons_append, ByteClass.run_append_pastRun]

end Layout

/-- Well-formed tokens can be laid out: a space before each keeps them apart. -/
theorem exists_layout {ts : List Token} (h : ∀ t ∈ ts, t.WellFormed) :
    ∃ l : Layout, l.tokens = ts ∧ ∀ q ∈ l.pieces, q.gap ≠ "" := by
  induction ts with
  | nil => exact ⟨⟨[], "", by simp [IsGap], .nil⟩, rfl, by simp⟩
  | cons t ts ih =>
      rw [List.forall_mem_cons] at h
      obtain ⟨l, rfl, hgaps⟩ := ih h.2
      refine ⟨l.cons ⟨" ", t, by simp [IsGap], h.1⟩ ?_, rfl, ?_⟩
      · intro q hq hgap
        exact absurd hgap (hgaps q (List.mem_of_mem_head? hq))
      · rw [Layout.cons, List.forall_mem_cons]
        exact ⟨by simp, hgaps⟩

/-- **The scanner reads layouts.**  The text of a layout has its tokens, every text is that of
a layout of its tokens, and so the lists of tokens that texts have are those of well-formed
tokens. -/
theorem tokenize_layout :
    (∀ l : Layout, tokenize l.text = l.tokens ++ [.eof])
      ∧ (∀ source, ∃ l : Layout, l.text = source ∧ tokenize source = l.tokens ++ [.eof])
      ∧ ∀ ts, (∃ source, tokenize source = ts ++ [.eof]) ↔ ∀ t ∈ ts, t.WellFormed := by
  have hlayout : ∀ l : Layout, tokenize l.text = l.tokens ++ [.eof] := by
    intro l
    rw [tokenize_eq, l.lex_text]
  have hsource : ∀ source, ∃ l : Layout, l.text = source
      ∧ tokenize source = l.tokens ++ [.eof] := by
    intro source
    obtain ⟨l, hl⟩ := Layout.exists_text_eq source.toList
    rw [String.ofList_toList] at hl
    refine ⟨l, hl, ?_⟩
    rw [← hl, hlayout]
  refine ⟨hlayout, hsource, ?_⟩
  intro ts
  constructor
  · intro hex
    obtain ⟨source, hts⟩ := hex
    obtain ⟨l, -, hl⟩ := hsource source
    rw [hts] at hl
    rw [List.append_cancel_right hl]
    intro t ht
    obtain ⟨p, -, rfl⟩ := List.mem_map.1 ht
    exact p.wellFormed
  · intro h
    obtain ⟨l, rfl, -⟩ := exists_layout h
    exact ⟨l.text, hlayout l⟩

/-- A number, a word, a mark and a stray character may all touch. -/
example : tokenize "1let=é" = [⟨.int, "1"⟩, ⟨.keyword .letWord, "let"⟩, ⟨.punct .assign, "="⟩,
    ⟨.illegal, "é"⟩, .eof] := by
  cbv

end MonkeyTokens
