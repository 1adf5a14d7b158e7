/-
The chain of scans is the tokenisation of a text.

`Tokenises.unique` leaves at most one list of pieces for a text.  Here the chain is shown
to be one: every lexeme has a form (`has_lexeme`), and the chain places the lexemes one
after another with blanks between them.

The invariant is `Apart`: whatever lies behind the place where a scan is called, no token
reaches across that place.  It holds at the beginning, a scan restores it, and it is what
makes a run maximal to the left.
-/
import MonkeyTokens.Proofs.Tokenisation

namespace MonkeyTokens

open Utf8 (lead size encode slice)
open ByteClass (ofChar)

/-! ### Every lexeme has a form -/

/-- The piece that a scan reads. -/
def Span.piece (s : Span) : Piece :=
  ⟨s.token.kind, s.stop - s.token.literal.utf8ByteSize, s.stop⟩

/-- The byte before a place belongs to the character before it. -/
theorem mem_utf8EncodeChar_of_before {us vs : List Char} {i : Nat} {b : UInt8}
    (hi : i + 1 = size us) (hb : (encode (us ++ vs))[i]? = some b) :
    ∃ a ∈ us.getLast?, b ∈ String.utf8EncodeChar a := by
  rcases List.eq_nil_or_concat us with rfl | ⟨us, a, rfl⟩
  · simp at hi
  · refine ⟨a, by simp, ?_⟩
    simp only [List.concat_eq_append, Utf8.size_append, Utf8.size_cons, Utf8.size_nil] at hi
    have hpos := a.utf8Size_pos
    rw [List.concat_eq_append, List.append_assoc, Utf8.encode_append,
      List.getElem?_append_right (by rw [Utf8.length_encode]; omega), List.singleton_append,
      Utf8.encode_cons, List.getElem?_append_left (by
        rw [Utf8.length_encode, String.length_utf8EncodeChar]; omega)] at hb
    exact List.mem_of_getElem? hb

/-- The byte at a place is the first of the character after it. -/
theorem lead_of_after {us vs : List Char} {b : UInt8}
    (hb : (encode (us ++ vs))[size us]? = some b) : ∃ d ∈ vs.head?, b = lead d := by
  rw [Utf8.encode_append, List.getElem?_append_right (by simp), Utf8.length_encode,
    Nat.sub_self] at hb
  cases vs with
  | nil => simp at hb
  | cons d vs =>
      rw [Utf8.encode_cons, Utf8.utf8EncodeChar_eq] at hb
      exact ⟨d, by simp, by simpa [eq_comm] using hb⟩

section Lexeme

variable {us cs : List Char} {c : Char}

theorem encode_lexeme (us : List Char) (c : Char) (cs : List Char) :
    encode (us ++ c :: cs) = encode (us ++ c :: (ofChar c).run cs ++ (ofChar c).pastRun cs) := by
  rw [List.append_assoc, List.cons_append, ByteClass.run_append_pastRun]

theorem slice_lexeme (us : List Char) (c : Char) (cs : List Char) :
    slice (encode (us ++ c :: cs)) (size us) (size (us ++ c :: (ofChar c).run cs))
      = encode (c :: (ofChar c).run cs) := by
  rw [encode_lexeme, Utf8.slice_encode]

/-- A lexeme of a class that joins with itself is a run. -/
theorem isRun_lexeme {p : UInt8 → Bool} (hapart : Apart us (c :: cs))
    (hself : (ofChar c).joins (ofChar c) = true) (hp : ∀ b, p b = (ofChar c).joins (.ofByte b)) :
    IsRun p (encode (us ++ c :: cs)) (size us) (size (us ++ c :: (ofChar c).run cs)) := by
  have hclass : ∀ {b}, p b = true → ofChar c = .ofByte b := by
    intro b hb
    rw [hp] at hb
    exact ByteClass.eq_of_joins hb
  have hascii : ∀ {b}, p b = true → b < 0x80 := by
    intro b hb
    refine ByteClass.lt_of_ofByte_ne_other b ?_
    intro hother
    rw [hclass hb, hother] at hself
    cases hself
  refine ⟨?_, ?_, ?_⟩
  · intro b hb
    rw [slice_lexeme, encode, List.mem_flatMap] at hb
    obtain ⟨d, hd, hbd⟩ := hb
    have hlead : p (lead d) = true := by
      rw [hp]
      show (ofChar c).joins (ofChar d) = true
      rw [ByteClass.ofChar_of_mem_lexeme hd, hself]
    rw [Utf8.utf8EncodeChar_eq, Utf8.trail_eq_nil (hascii hlead), List.mem_singleton] at hbd
    rw [hbd, hlead]
  · -- Were the byte before the lexeme such a byte, its character would join the lexeme.
    intro i b hi hb
    by_contra hnot
    rw [Bool.not_eq_false] at hnot
    obtain ⟨a, ha, hba⟩ := mem_utf8EncodeChar_of_before hi hb
    rw [Utf8.eq_lead_of_mem hba (hascii hnot)] at hnot
    have hjoin := hapart a ha c (by simp)
    rw [show ofChar a = ofChar c from (hclass hnot).symm, hself] at hjoin
    cases hjoin
  · intro b hb
    rw [encode_lexeme] at hb
    obtain ⟨d, hd, rfl⟩ := lead_of_after hb
    rw [hp]
    exact ByteClass.joins_of_mem_head? hd

/-- **Every lexeme has a form.** -/
theorem has_lexeme (hapart : Apart us (c :: cs)) (hc : isBlankChar c = false) :
    ∃ form, Piece.Has (encode (us ++ c :: cs))
      ⟨(Token.first c cs).kind, size us, size (us ++ c :: (ofChar c).run cs)⟩ form := by
  have hslice := slice_lexeme us c cs
  have hkind : (Token.first c cs).kind
      = (ofChar c).kind (.ofList (c :: (ofChar c).run cs)) := rfl
  obtain ⟨k, hclass⟩ : ∃ k, ofChar c = k := ⟨_, rfl⟩
  cases k with
  | blank =>
      rw [isBlankChar_iff.2 hclass] at hc
      cases hc
  | punct p =>
      have hspell := Punct.ofByte?_eq_some_iff.1 (ByteClass.ofByte_eq_punct_iff.1 hclass)
      rw [Utf8.ofUInt8_lead (ByteClass.lead_lt_of_ofChar (by simp [hclass])),
        String.singleton_eq_ofList] at hspell
      rw [hclass] at hkind
      rw [(ByteClass.run_alone (by rw [hclass]; exact fun _ => rfl) cs).1] at hslice ⊢
      exact ⟨.mark p, by rw [hspell, Utf8.bytes_ofList]; exact hslice, hkind⟩
  | letter =>
      have hrun := isRun_lexeme (p := isLetter) hapart (by rw [hclass]; rfl)
        (by rw [hclass]; exact ByteClass.isLetter_eq_joins)
      rw [hclass, ByteClass.kind, ← hclass] at hkind
      refine ⟨.word, hrun, ?_⟩
      have hbytes := hslice.trans (Utf8.bytes_ofList _).symm
      rcases Kind.ofWord_eq (.ofList (c :: (ofChar c).run cs)) with ⟨k, hk, hword⟩ | ⟨hne, hword⟩
      · left
        exact ⟨k, hbytes.trans (by rw [hk]), hkind.trans hword⟩
      · right
        refine ⟨?_, hkind.trans hword⟩
        intro k hk
        exact hne k (Utf8.bytes_injective (hbytes.symm.trans hk))
  | digit =>
      have hrun := isRun_lexeme (p := isDigit) hapart (by rw [hclass]; rfl)
        (by rw [hclass]; exact ByteClass.isDigit_eq_joins)
      rw [hclass] at hkind
      exact ⟨.number, hrun, hkind⟩
  | other =>
      rw [hclass] at hkind
      rw [(ByteClass.run_alone (by rw [hclass]; exact fun _ => rfl) cs).1] at hslice ⊢
      exact ⟨.stray, c, isStray_iff.2 hclass, by rw [hslice]; exact List.append_nil _, hkind⟩

/-- Where a scan stops and how long its literal is say where its token begins. -/
theorem Span.piece_lexeme (us : List Char) (c : Char) (cs : List Char) (origin start : Nat) :
    (Span.mk origin start (size (us ++ c :: (ofChar c).run cs)) (Token.first c cs)).piece
      = ⟨(Token.first c cs).kind, size us, size (us ++ c :: (ofChar c).run cs)⟩ := by
  have hlen : (Token.first c cs).literal.utf8ByteSize = size (c :: (ofChar c).run cs) :=
    Utf8.utf8ByteSize_ofList _
  rw [Span.piece, hlen, Utf8.size_append, Nat.add_sub_cancel]

end Lexeme

theorem isBlank_of_mem_encode {gap : List Char} (hgap : ∀ b ∈ gap, isBlankChar b = true)
    {b : UInt8} (hb : b ∈ encode gap) : isBlank b = true := by
  rw [encode, List.mem_flatMap] at hb
  obtain ⟨c, hc, hbc⟩ := hb
  have hblank := hgap c hc
  have hascii : lead c < 0x80 :=
    ByteClass.lead_lt_of_ofChar (by rw [isBlankChar_iff.1 hblank]; simp)
  rw [Utf8.utf8EncodeChar_eq, Utf8.trail_eq_nil hascii, List.mem_singleton] at hbc
  rw [hbc]
  exact hblank

/-! ### The chain is the tokenisation -/

/-- What a chain of scans of these bytes is: scans that read pieces one after another, and a
scan that reads the end. -/
structure IsChain (bs : List UInt8) (pos : Nat) (found : List Span) (last : Span) : Prop where
  end_token : last.token = .eof
  end_stop : last.stop = bs.length
  not_end : ∀ s ∈ found, s.token.isEof = false
  literal : ∀ s ∈ found, Utf8.bytes s.token.literal = slice bs s.piece.start s.piece.stop
  tokenises : Tokenises bs pos (found.map (·.piece))

theorem spansAhead_isChain {us cs : List Char} (hapart : Apart us cs) :
    ∃ found last, spansAhead us cs = found ++ [last]
      ∧ IsChain (encode (us ++ cs)) (size us) found last := by
  induction cs using scan_induction generalizing us with
  | blanks gap hgap =>
      refine ⟨[], _, spansAhead_blanks us hgap, rfl, by simp, by simp, by simp, .done ?_⟩
      intro b hb
      rw [Utf8.encode_append, ← Utf8.length_encode, List.drop_left] at hb
      exact isBlank_of_mem_encode hgap hb
  | token gap c cs hgap hc ih =>
      have hat := hapart.past_gap hgap
      obtain ⟨form, hform⟩ := has_lexeme hat hc
      have hslice := slice_lexeme (us ++ gap) c cs
      obtain ⟨found, last, hspans, hchain⟩ := ih (Apart.past_token (us ++ gap) c cs)
      rw [← encode_lexeme] at hchain
      rw [List.append_assoc] at hform hslice hchain
      have hpiece := Span.piece_lexeme (us ++ gap) c cs (size us) (size (us ++ gap))
      have hstop : size (us ++ gap ++ c :: (ofChar c).run cs) ≤ size (us ++ (gap ++ c :: cs)) := by
        rw [← List.append_assoc, ← Utf8.length_encode (us ++ gap ++ c :: cs), encode_lexeme]
        simp
      refine ⟨_ :: found, last, by rw [spansAhead_token us hgap hc, hspans, List.cons_append],
        hchain.end_token, hchain.end_stop, ?_, ?_, ?_⟩
      · rw [List.forall_mem_cons]
        exact ⟨Token.isEof_first c cs, hchain.not_end⟩
      · rw [List.forall_mem_cons]
        refine ⟨?_, hchain.literal⟩
        rw [hpiece, Token.bytes_first]
        exact hslice.symm
      · rw [List.map_cons, hpiece]
        refine .piece ?_ ?_ ?_ ?_ hform hchain.tokenises
        · simp
        · have hpos := c.utf8Size_pos
          simp only [Utf8.size_append, Utf8.size_cons]
          omega
        · rw [Utf8.length_encode]
          exact hstop
        · intro b hb
          rw [← List.append_assoc, Utf8.slice_encode] at hb
          exact isBlank_of_mem_encode hgap hb

/-- **A text is taken apart in one way only, and the chain of scans from its beginning is that
way.** -/
theorem spans_only_tokenisation (source : String) :
    ∃ found last, spans source = found ++ [last]
      ∧ tokenize source = found.map (·.token) ++ [.eof]
      ∧ last.token = .eof ∧ last.stop = source.utf8ByteSize
      ∧ (∀ s ∈ found, s.token.isEof = false
          ∧ Utf8.bytes s.token.literal = slice (Utf8.bytes source) s.piece.start s.piece.stop
          ∧ ∃! form, s.piece.Has (Utf8.bytes source) form)
      ∧ ∀ pieces, Tokenises (Utf8.bytes source) 0 pieces ↔ pieces = found.map (·.piece) := by
  obtain ⟨cs, rfl⟩ := source.exists_eq_ofList
  obtain ⟨found, last, hspans, hchain⟩ := spansAhead_isChain (Apart.nil_left cs)
  rw [← spans_ofList] at hspans
  rw [List.nil_append, Utf8.size_nil, ← Utf8.bytes_ofList] at hchain
  refine ⟨found, last, hspans, ?_, hchain.end_token, ?_, ?_, ?_⟩
  · rw [tokenize, hspans, List.map_append, List.map_singleton, hchain.end_token]
  · rw [hchain.end_stop, Utf8.length_bytes]
  · intro s hs
    exact ⟨hchain.not_end s hs, hchain.literal s hs,
      hchain.tokenises.has_form _ (List.mem_map_of_mem hs)⟩
  · intro pieces
    constructor
    · intro h
      exact h.unique hchain.tokenises
    · intro h
      rw [h]
      exact hchain.tokenises

end MonkeyTokens
