/-
A text has one tokenisation, and the chain of scans finds it.

What counts as a tokenisation is said here of bytes, offsets and kinds, without a word
about scanning: the pieces follow one another, only blanks lie between them, and each
piece has one of four forms.  Runs of letters and of digits are as long as they can be on
both sides.  The scan never looks to the left of a token; that a run could not begin
earlier follows from where the token before it stopped.

The rules leave no choice (`Tokenises.unique`): the first byte that is no blank begins
the next piece and settles its form, and the form settles where the piece stops.
-/
import MonkeyTokens.Proofs.Chain

namespace MonkeyTokens

open Utf8 (lead trail size encode slice)
open ByteClass (ofChar)

/-! ### What a tokenisation is -/

/-- The bytes from `start` up to `stop`, taken for a token of a kind. -/
structure Piece where
  kind : Kind
  start : Nat
  stop : Nat
  deriving DecidableEq

/-- Bytes that satisfy `p`, with no such byte next to them on either side. -/
structure IsRun (p : UInt8 → Bool) (bs : List UInt8) (start stop : Nat) : Prop where
  within : ∀ b ∈ slice bs start stop, p b = true
  before : ∀ i b, i + 1 = start → bs[i]? = some b → p b = false
  after : ∀ b, bs[stop]? = some b → p b = false

/-- A character that is no blank, no letter, no digit and no punctuation mark. -/
structure IsStray (c : Char) : Prop where
  not_blank : c ∉ [' ', '\t', '\n', '\r']
  not_letter : c.isAlpha = false ∧ c ≠ '_'
  not_digit : c.isDigit = false
  not_punct : ∀ p : Punct, p.spelling ≠ String.singleton c

/-- The forms that a token can have. -/
inductive Form where
  | mark (p : Punct)
  | word
  | number
  | stray
  deriving DecidableEq

/-- Does the piece have the form, and the kind that goes with it? -/
def Piece.Has (bs : List UInt8) (piece : Piece) : Form → Prop
  | .mark p => slice bs piece.start piece.stop = Utf8.bytes p.spelling ∧ piece.kind = .punct p
  | .word =>
    IsRun isLetter bs piece.start piece.stop ∧
      ((∃ k : Keyword, slice bs piece.start piece.stop = Utf8.bytes k.spelling
          ∧ piece.kind = .keyword k)
        ∨ (∀ k : Keyword, slice bs piece.start piece.stop ≠ Utf8.bytes k.spelling)
          ∧ piece.kind = .ident)
  | .number => IsRun isDigit bs piece.start piece.stop ∧ piece.kind = .int
  | .stray =>
    ∃ c, IsStray c ∧ slice bs piece.start piece.stop = String.utf8EncodeChar c
      ∧ piece.kind = .illegal

/-- The pieces take the bytes from an offset on apart. -/
inductive Tokenises (bs : List UInt8) : Nat → List Piece → Prop
  /-- Nothing but blanks is left. -/
  | done {pos : Nat} (blanks : ∀ b ∈ bs.drop pos, isBlank b = true) : Tokenises bs pos []
  /-- Blanks, then a piece, then what follows it. -/
  | piece {pos : Nat} {piece : Piece} {rest : List Piece} {form : Form}
      (forwards : pos ≤ piece.start) (nonempty : piece.start < piece.stop)
      (inside : piece.stop ≤ bs.length)
      (blanks : ∀ b ∈ slice bs pos piece.start, isBlank b = true)
      (has : piece.Has bs form) (next : Tokenises bs piece.stop rest) :
      Tokenises bs pos (piece :: rest)

/-! ### First bytes -/

/-- The form of a token whose first byte has this class. -/
def Form.ofClass : ByteClass → Option Form
  | .punct p => some (.mark p)
  | .letter => some .word
  | .digit => some .number
  | .other => some .stray
  | .blank => none

/-- Each mark is one byte, and this byte stands for it. -/
theorem bytes_spelling (p : Punct) :
    ∃ b, Utf8.bytes p.spelling = [b] ∧ ByteClass.ofByte b = .punct p := by
  obtain ⟨c, hc, hclass⟩ := ByteClass.toList_spelling p
  have hascii : lead c < 0x80 := ByteClass.lead_lt_of_ofChar (by simp [hclass])
  refine ⟨lead c, ?_, hclass⟩
  rw [Utf8.bytes_eq_encode, hc, Utf8.encode_cons, Utf8.encode_nil, List.append_nil,
    Utf8.utf8EncodeChar_eq, Utf8.trail_eq_nil hascii]

theorem lead_lt_of_toNat {c : Char} (h : c.toNat < 128) : lead c < 0x80 :=
  Utf8.lead_lt_iff.2 (Char.utf8Size_eq_one_iff.2 (Nat.le_of_lt_succ h))

/-- A character of one byte has the classes of this byte. -/
theorem isStray_iff_of_ascii {c : Char} (hc : lead c < 0x80) :
    IsStray c ↔ ofChar c = .other := by
  have hchar := Utf8.ofUInt8_lead hc
  have hnone : Punct.ofByte? (lead c) = none ↔ ∀ p : Punct, p.spelling ≠ String.singleton c := by
    rw [Option.eq_none_iff_forall_ne_some]
    simp only [ne_eq, Punct.ofByte?_eq_some_iff, hchar]
  have hblank : isBlank (lead c) = false ↔ c ∉ [' ', '\t', '\n', '\r'] := by
    rw [← hchar, ← isBlank_iff, hchar, Bool.not_eq_true]
  rw [ofChar, ByteClass.ofByte_eq_other_iff, hnone, hblank, isLetter, isDigit, hchar]
  constructor
  · intro h
    exact ⟨h.not_punct, by simp [h.not_letter], h.not_digit, h.not_blank⟩
  · intro hex
    obtain ⟨hp, hl, hd, hb⟩ := hex
    exact ⟨hb, by simpa using hl, hd, hp⟩

/-- Characters of several bytes are all stray. -/
theorem isStray_of_not_ascii {c : Char} (hc : ¬ lead c < 0x80) : IsStray c := by
  have hbig : 128 ≤ c.toNat := by
    by_contra hlt
    exact hc (lead_lt_of_toNat (Nat.not_le.1 hlt))
  refine ⟨?_, ⟨?_, ?_⟩, ?_, ?_⟩
  · intro hmem
    simp only [List.mem_cons, List.not_mem_nil, or_false] at hmem
    rcases hmem with rfl | rfl | rfl | rfl <;> exact absurd hbig (by decide)
  · rw [Bool.eq_false_iff]
    intro halpha
    have hle : c.toNat ≤ 'z'.toNat := by
      rcases Bool.or_eq_true_iff.1 (show (c.isUpper || c.isLower) = true from halpha) with h | h
      · have hZ : c.val ≤ 'Z'.val := (of_decide_eq_true h).2
        exact Nat.le_trans (UInt32.le_iff_toNat_le.1 hZ) (by decide)
      · have hz : c.val ≤ 'z'.val := of_decide_eq_true (Bool.and_eq_true_iff.1 h).2
        exact UInt32.le_iff_toNat_le.1 hz
    have hz : 'z'.toNat = 122 := rfl
    omega
  · intro heq
    subst heq
    exact absurd hbig (by decide)
  · rw [Bool.eq_false_iff]
    intro hdigit
    have hle := (Char.isDigit_iff_toNat.1 hdigit).2
    have h9 : '9'.toNat = 57 := rfl
    omega
  · intro p hp
    obtain ⟨b, hb, -⟩ := bytes_spelling p
    rw [hp, String.singleton_eq_ofList, Utf8.bytes_ofList, Utf8.encode_cons, Utf8.encode_nil,
      List.append_nil] at hb
    apply hc
    apply Utf8.lead_lt_iff.2
    rw [← String.length_utf8EncodeChar, hb]
    rfl

/-- Stray characters are those whose first byte has no class of its own. -/
theorem isStray_iff {c : Char} : IsStray c ↔ ofChar c = .other := by
  by_cases hc : lead c < 0x80
  · exact isStray_iff_of_ascii hc
  · refine ⟨fun _ => ?_, fun _ => isStray_of_not_ascii hc⟩
    by_contra hne
    exact hc (ByteClass.lead_lt_of_ofChar hne)

theorem getElem?_slice {bs : List UInt8} {start stop i : Nat} (h : start + i < stop) :
    (slice bs start stop)[i]? = bs[start + i]? := by
  rw [slice, List.getElem?_drop, List.getElem?_take_of_lt h]

theorem getElem?_zero_slice (bs : List UInt8) {start stop : Nat} (h : start < stop) :
    (slice bs start stop)[0]? = bs[start]? :=
  getElem?_slice h

theorem mem_slice {bs : List UInt8} {start stop i : Nat} {b : UInt8} (hstart : start ≤ i)
    (hstop : i < stop) (hb : bs[i]? = some b) : b ∈ slice bs start stop := by
  obtain ⟨d, rfl⟩ := Nat.exists_eq_add_of_le hstart
  rw [← getElem?_slice hstop] at hb
  exact List.mem_of_getElem? hb

theorem length_slice {bs : List UInt8} (start : Nat) {stop : Nat} (h : stop ≤ bs.length) :
    (slice bs start stop).length = stop - start := by
  rw [slice, List.length_drop, List.length_take, Nat.min_eq_left h]

section Pieces

variable {bs : List UInt8} {piece other : Piece} {form : Form}

/-- The first byte of a run is one of its bytes. -/
theorem IsRun.first {p : UInt8 → Bool} {start stop : Nat} (h : IsRun p bs start stop)
    (hlt : start < stop) (hle : stop ≤ bs.length) : ∃ b, bs[start]? = some b ∧ p b = true := by
  have hb : bs[start]? = some bs[start] := List.getElem?_eq_getElem (by omega)
  exact ⟨_, hb, h.within _ (mem_slice (Nat.le_refl _) hlt hb)⟩

/-- The first byte of a piece settles its form. -/
theorem Piece.Has.first (h : piece.Has bs form) (hlt : piece.start < piece.stop)
    (hle : piece.stop ≤ bs.length) :
    ∃ b, bs[piece.start]? = some b ∧ Form.ofClass (.ofByte b) = some form := by
  have hzero := getElem?_zero_slice bs hlt
  cases form with
  | mark p =>
      obtain ⟨b, hb, hclass⟩ := bytes_spelling p
      refine ⟨b, ?_, by rw [hclass, Form.ofClass]⟩
      rw [← hzero, h.1, hb]
      rfl
  | word =>
      obtain ⟨b, hb, hletter⟩ := h.1.first hlt hle
      rw [ByteClass.isLetter_eq, decide_eq_true_eq] at hletter
      exact ⟨b, hb, by rw [hletter, Form.ofClass]⟩
  | number =>
      obtain ⟨b, hb, hdigit⟩ := h.1.first hlt hle
      rw [ByteClass.isDigit_eq, decide_eq_true_eq] at hdigit
      exact ⟨b, hb, by rw [hdigit, Form.ofClass]⟩
  | stray =>
      obtain ⟨c, hc, hbytes, -⟩ := h
      refine ⟨lead c, ?_, ?_⟩
      · rw [← hzero, hbytes, Utf8.utf8EncodeChar_eq]
        rfl
      · rw [show ByteClass.ofByte (lead c) = .other from isStray_iff.1 hc, Form.ofClass]

/-- A piece has one form at most. -/
theorem Piece.Has.form_eq {form' : Form} (h : piece.Has bs form) (h' : piece.Has bs form')
    (hlt : piece.start < piece.stop) (hle : piece.stop ≤ bs.length) : form = form' := by
  obtain ⟨b, hb, hform⟩ := h.first hlt hle
  obtain ⟨b', hb', hform'⟩ := h'.first hlt hle
  rw [hb, Option.some.injEq] at hb'
  rw [hb', hform', Option.some.injEq] at hform
  exact hform.symm

/-- The pieces of a tokenisation have one form each. -/
theorem Tokenises.has_form {pos : Nat} {pieces : List Piece} (h : Tokenises bs pos pieces) :
    ∀ piece ∈ pieces, ∃! form, piece.Has bs form := by
  induction h with
  | done => simp
  | piece _ hlt hle _ hhas _ ih =>
      rw [List.forall_mem_cons]
      exact ⟨⟨_, hhas, fun _ hhas' => hhas'.form_eq hhas hlt hle⟩, ih⟩

/-! ### The rules leave no choice -/

private theorem IsRun.stop_le {p : UInt8 → Bool} {start stop stop' : Nat}
    (h : IsRun p bs start stop) (h' : IsRun p bs start stop') (hlt : start < stop)
    (hle' : stop' ≤ bs.length) : stop' ≤ stop := by
  by_contra hnot
  have hb : bs[stop]? = some bs[stop] := List.getElem?_eq_getElem (by omega)
  have hyes := h'.within _ (mem_slice (Nat.le_of_lt hlt) (by omega) hb)
  rw [h.after _ hb] at hyes
  cases hyes

/-- Runs that begin at the same place stop at the same place. -/
theorem IsRun.stop_eq {p : UInt8 → Bool} {start stop stop' : Nat} (h : IsRun p bs start stop)
    (h' : IsRun p bs start stop') (hlt : start < stop) (hlt' : start < stop')
    (hle : stop ≤ bs.length) (hle' : stop' ≤ bs.length) : stop = stop' :=
  Nat.le_antisymm (h'.stop_le h hlt' hle) (h.stop_le h' hlt hle')

/-- No two reserved words have the same bytes. -/
theorem Keyword.spelling_injective {k l : Keyword}
    (h : Utf8.bytes k.spelling = Utf8.bytes l.spelling) : k = l := by
  have hl := Keyword.ofText?_eq_some_iff.2 (Utf8.bytes_injective h)
  rw [Keyword.ofText?_eq_some_iff.2 rfl, Option.some.injEq] at hl
  exact hl

/-- A piece is settled by where it begins and by its form. -/
theorem Piece.Has.piece_eq (h : piece.Has bs form) (h' : other.Has bs form)
    (hstart : piece.start = other.start) (hlt : piece.start < piece.stop)
    (hlt' : other.start < other.stop) (hle : piece.stop ≤ bs.length)
    (hle' : other.stop ≤ bs.length) : piece = other := by
  obtain ⟨kind, start, stop⟩ := piece
  obtain ⟨kind', start', stop'⟩ := other
  have hlen := length_slice start hle
  have hlen' := length_slice start' hle'
  simp only at hstart hlt hlt' hle hle' hlen hlen'
  subst hstart
  cases form with
  | mark p =>
      obtain ⟨hbytes, hkind⟩ := h
      obtain ⟨hbytes', hkind'⟩ := h'
      simp only at hbytes hkind hbytes' hkind'
      rw [hbytes] at hlen
      rw [hbytes'] at hlen'
      rw [hkind, hkind', show stop = stop' by omega]
  | word =>
      obtain ⟨hrun, hword⟩ := h
      obtain ⟨hrun', hword'⟩ := h'
      have hstop := hrun.stop_eq hrun' hlt hlt' hle hle'
      simp only at hstop
      subst hstop
      simp only at hword hword'
      rcases hword with ⟨k, hk, hkind⟩ | ⟨hnone, hkind⟩
      · rcases hword' with ⟨l, hl, hkind'⟩ | ⟨hnone', hkind'⟩
        · rw [hkind, hkind', Keyword.spelling_injective (hk.symm.trans hl)]
        · exact absurd hk (hnone' k)
      · rcases hword' with ⟨l, hl, hkind'⟩ | ⟨hnone', hkind'⟩
        · exact absurd hl (hnone l)
        · rw [hkind, hkind']
  | number =>
      obtain ⟨hrun, hkind⟩ := h
      obtain ⟨hrun', hkind'⟩ := h'
      have hstop := hrun.stop_eq hrun' hlt hlt' hle hle'
      simp only at hkind hkind' hstop
      rw [hkind, hkind', hstop]
  | stray =>
      obtain ⟨c, -, hbytes, hkind⟩ := h
      obtain ⟨c', -, hbytes', hkind'⟩ := h'
      simp only at hbytes hkind hbytes' hkind'
      -- Both characters have the byte at `start` for their first, which gives their width.
      have hlead : lead c = lead c' := by
        have hzero := getElem?_zero_slice bs hlt
        rw [← getElem?_zero_slice bs hlt', hbytes, hbytes', Utf8.utf8EncodeChar_eq,
          Utf8.utf8EncodeChar_eq] at hzero
        simpa using hzero
      have hwidth : c.utf8Size = c'.utf8Size := by
        rw [← (Utf8.leadWidth_lead c).1, hlead, (Utf8.leadWidth_lead c').1]
      rw [hbytes, String.length_utf8EncodeChar] at hlen
      rw [hbytes', String.length_utf8EncodeChar] at hlen'
      rw [hkind, hkind', show stop = stop' by omega]

/-- The next piece begins at the first byte that is no blank. -/
theorem Piece.Has.le_start {pos stop : Nat} (h : piece.Has bs form)
    (hpos : pos ≤ piece.start) (hlt : piece.start < piece.stop) (hle : piece.stop ≤ bs.length)
    (hblanks : ∀ b ∈ slice bs pos stop, isBlank b = true) : stop ≤ piece.start := by
  by_contra hnot
  obtain ⟨b, hb, hform⟩ := h.first hlt hle
  have hblank := hblanks b (mem_slice hpos (by omega) hb)
  rw [ByteClass.isBlank_eq, decide_eq_true_eq] at hblank
  rw [hblank, Form.ofClass] at hform
  cases hform

/-- Where only blanks are left, there is no piece. -/
theorem Piece.Has.not_blanks {pos : Nat} (h : piece.Has bs form) (hpos : pos ≤ piece.start)
    (hlt : piece.start < piece.stop) (hle : piece.stop ≤ bs.length) :
    ¬ ∀ b ∈ bs.drop pos, isBlank b = true := by
  intro hblanks
  refine absurd (show piece.stop ≤ piece.start from ?_) (Nat.not_le.2 hlt)
  refine h.le_start hpos hlt hle ?_
  intro b hb
  rw [slice, List.drop_take] at hb
  exact hblanks b (List.mem_of_mem_take hb)

/-- **A text has one tokenisation at most.** -/
theorem Tokenises.unique {pos : Nat} {pieces pieces' : List Piece} (h : Tokenises bs pos pieces)
    (h' : Tokenises bs pos pieces') : pieces = pieces' := by
  induction h generalizing pieces' with
  | done hblanks =>
      cases h' with
      | done => rfl
      | piece hpos hlt hle _ hhas _ => exact (hhas.not_blanks hpos hlt hle hblanks).elim
  | @piece pos piece rest form hpos hlt hle hblanks hhas _ ih =>
      cases h' with
      | done hblanks' => exact (hhas.not_blanks hpos hlt hle hblanks').elim
      | @piece _ piece' rest' form' hpos' hlt' hle' hblanks' hhas' hnext' =>
          have hstart : piece.start = piece'.start :=
            Nat.le_antisymm (hhas'.le_start hpos' hlt' hle' hblanks)
              (hhas.le_start hpos hlt hle hblanks')
          have hform : form = form' := by
            obtain ⟨b, hb, hfirst⟩ := hhas.first hlt hle
            obtain ⟨b', hb', hfirst'⟩ := hhas'.first hlt' hle'
            rw [hstart, hb', Option.some.injEq] at hb
            rw [← hb, hfirst', Option.some.injEq] at hfirst
            exact hfirst.symm
          subst hform
          have hpiece := hhas.piece_eq hhas' hstart hlt hlt' hle hle'
          subst hpiece
          rw [ih hnext']

end Pieces

end MonkeyTokens
