/-
What a spelling says about a kind.

Three tables hold fixed spellings: that of the kinds, that of the reserved words by their text,
and that of the marks by their byte.  They agree.  The words are filed by their length, and a
text is looked for among those of its own length only.  Each word is filed under the length that
it has, so none is missed (`Keyword.amongLength?_eq`).

In a text the tables meet in the scan, and there the order of its tests could let one of them
hide another.  It does not, since a token can be found again from its text alone: taken apart,
the text of a token is this token (`Token.WellFormed.eq_of_literal_eq`).  So whatever is spelled
as a kind is of this kind.
-/
import MonkeyTokens.Proofs.Layout

namespace MonkeyTokens

/-! ### The tables -/

namespace Keyword

/-- Words of other lengths need not be looked at. -/
theorem amongLength?_eq (text : String) : amongLength? text = ofText? text := by
  ext k
  rw [amongLength?_eq_some_iff, ofText?_eq_some_iff]

/-- A text is found to be a reserved word of a kind where it is the spelling of this kind. -/
theorem map_ofText?_eq_some_iff {text : String} {k : Kind} :
    (ofText? text).map Kind.keyword = some k
      ↔ (∃ w, k = .keyword w) ∧ k.spelling = some text := by
  rw [Option.map_eq_some_iff]
  constructor
  · rintro ⟨w, hw, rfl⟩
    rw [ofText?_eq_some_iff.1 hw]
    exact ⟨⟨w, rfl⟩, rfl⟩
  · rintro ⟨⟨w, rfl⟩, hspelling⟩
    exact ⟨w, ofText?_eq_some_iff.2 (Option.some.inj hspelling).symm, rfl⟩

end Keyword

/-- A byte is found to be a mark of a kind where it is the spelling of this kind. -/
theorem Punct.map_ofByte?_eq_some_iff {b : UInt8} {k : Kind} :
    (ofByte? b).map Kind.punct = some k
      ↔ (∃ p, k = .punct p) ∧ k.spelling = some (String.singleton (Char.ofUInt8 b)) := by
  rw [Option.map_eq_some_iff]
  constructor
  · rintro ⟨p, hp, rfl⟩
    rw [← ofByte?_eq_some_iff.1 hp]
    exact ⟨⟨p, rfl⟩, rfl⟩
  · rintro ⟨⟨p, rfl⟩, hspelling⟩
    exact ⟨p, ofByte?_eq_some_iff.2 (Option.some.inj hspelling), rfl⟩

/-! ### Tokens -/

namespace Token.WellFormed

variable {t u : Token} {k : Kind} {text : String}

/-- A token is settled by its text. -/
theorem eq_of_literal_eq (ht : t.WellFormed) (hu : u.WellFormed) (h : t.literal = u.literal) :
    t = u := by
  obtain ⟨k, hk⟩ := wellFormed_iff.1 ht
  obtain ⟨l, hl⟩ := wellFormed_iff.1 hu
  have hlex := hk.lex_literal
  rw [h, hl.lex_literal] at hlex
  exact (List.cons.inj hlex).1.symm

/-- A token of a kind that fixes its text has this text. -/
theorem literal_eq (ht : t.WellFormed) (h : t.kind.spelling = some text) : t.literal = text := by
  cases ht with
  | spelled hspelling => exact Option.some.inj (hspelling.symm.trans h)
  | name | number | stray => cases h

theorem literal_ne_empty (ht : t.WellFormed) : t.literal ≠ "" := by
  obtain ⟨l, hl⟩ := wellFormed_iff.1 ht
  obtain ⟨c, cs, hcs, -⟩ := hl.chars
  intro hempty
  rw [hempty] at hcs
  cases hcs

/-- A token is of the kind that it is spelled as, and of no other. -/
theorem kind_eq_iff (ht : t.WellFormed) (h : k.spelling = some text) :
    t.kind = k ↔ t.literal = text := by
  constructor
  · intro hkind
    exact ht.literal_eq (by rw [hkind, h])
  · intro hliteral
    rw [ht.eq_of_literal_eq (.spelled h) hliteral]

end Token.WellFormed

/-- What is read in a text is allowed by the language. -/
theorem Token.wellFormed_of_mem_lex {cs : List Char} {t : Token} (h : t ∈ lex cs) :
    t.WellFormed := by
  obtain ⟨l, hl⟩ := Layout.exists_text_eq cs
  have hlex := l.lex_text
  rw [hl, String.toList_ofList] at hlex
  rw [hlex] at h
  obtain ⟨p, -, rfl⟩ := List.mem_map.1 h
  exact p.wellFormed

section Texts

variable {source : String} {t : Token}

theorem eq_eof_or_wellFormed (h : t ∈ tokenize source) : t = .eof ∨ t.WellFormed := by
  rw [tokenize_eq, List.mem_append, List.mem_singleton] at h
  exact h.symm.imp_right Token.wellFormed_of_mem_lex

theorem wellFormed_of_not_isEof (h : t ∈ tokenize source) (hend : t.isEof = false) :
    t.WellFormed := by
  rcases eq_eof_or_wellFormed h with rfl | ht
  · cases hend
  · exact ht

/-- The end has no spelling, and its text spells nothing. -/
theorem kind_eq_iff_of_mem_tokenize (h : t ∈ tokenize source) {k : Kind} {text : String}
    (hspelling : k.spelling = some text) : t.kind = k ↔ t.literal = text := by
  rcases eq_eof_or_wellFormed h with rfl | ht
  · refine iff_of_false ?_ ?_
    · intro hk
      rw [← hk] at hspelling
      cases hspelling
    · intro hempty
      exact Token.WellFormed.literal_ne_empty (.spelled hspelling) hempty.symm
  · exact ht.kind_eq_iff hspelling

/-- A kind that does not fix its text has no token with a fixed one. -/
theorem spelling_ne_of_mem_tokenize (h : t ∈ tokenize source) (hfree : t.kind.spelling = none)
    (k : Kind) : k.spelling ≠ some t.literal := by
  intro hspelling
  rw [(kind_eq_iff_of_mem_tokenize h hspelling).2 rfl, hspelling] at hfree
  cases hfree

end Texts

/-- **The tables of spellings agree, and so does the scan with them.**  Words and marks are
found where they are spelled as the kinds are, words among those of their length too.  A token
is of a kind with a fixed spelling if and only if this is its text, so names, numbers and stray
characters have no such text, and tokens with the same text are of the same kind wherever they
come from. -/
theorem spellings_agree :
    (∀ text, Keyword.amongLength? text = Keyword.ofText? text)
      ∧ (∀ text k, (Keyword.ofText? text).map Kind.keyword = some k
          ↔ (∃ w, k = .keyword w) ∧ k.spelling = some text)
      ∧ (∀ b k, (Punct.ofByte? b).map Kind.punct = some k
          ↔ (∃ p, k = .punct p) ∧ k.spelling = some (String.singleton (Char.ofUInt8 b)))
      ∧ (∀ source, ∀ t ∈ tokenize source, ∀ (k : Kind) (text : String),
          k.spelling = some text → (t.kind = k ↔ t.literal = text))
      ∧ (∀ source, ∀ t ∈ tokenize source, t.kind ∈ [.ident, .int, .illegal] →
          ∀ k : Kind, k.spelling ≠ some t.literal)
      ∧ ∀ source source', ∀ t ∈ tokenize source, ∀ u ∈ tokenize source',
          t.isEof = false → u.isEof = false → t.literal = u.literal → t.kind = u.kind := by
  refine ⟨Keyword.amongLength?_eq, fun _ _ => Keyword.map_ofText?_eq_some_iff,
    fun _ _ => Punct.map_ofByte?_eq_some_iff, ?_, ?_, ?_⟩
  · intro source t ht k text hspelling
    exact kind_eq_iff_of_mem_tokenize ht hspelling
  · intro source t ht hkind
    refine spelling_ne_of_mem_tokenize ht ?_
    simp only [List.mem_cons, List.not_mem_nil, or_false] at hkind
    rcases hkind with hkind | hkind | hkind <;> rw [hkind, Kind.spelling]
  · intro source source' t ht u hu hend hend' hliteral
    rw [(wellFormed_of_not_isEof ht hend).eq_of_literal_eq (wellFormed_of_not_isEof hu hend')
      hliteral]

end MonkeyTokens
