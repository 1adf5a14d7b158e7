/-
What one scan reads, said of characters.

`Span.after` walks bytes.  Called between two characters it passes the blanks ahead and
then reads a *lexeme*: the first character that is no blank, and after it the characters
that join with it.  Letters join with letters and digits with digits, and nothing else
joins.  `Span.after_gap` and `Span.after_blanks` say this of the scan, and what is proved
of scans elsewhere rests on these two.
-/
import MonkeyTokens.Proofs.CharClass
import MonkeyTokens.Proofs.Text.Seam
import MonkeyTokens.Span

namespace MonkeyTokens

open Utf8 (lead size encode)

/-! ### Movements over characters -/

namespace Cursor

/-- Blanks are passed up to the first character that is none. -/
theorem skipBlanks_seam (us vs : List Char) :
    (seam us vs).skipBlanks
      = seam (us ++ vs.takeWhile isBlankChar) (vs.dropWhile isBlankChar) :=
  skipWhile_seam (ByteClass.lt_of_test (by simp) ByteClass.isBlank_eq) us vs

theorem skipBlanks_blanks (us : List Char) {gap : List Char}
    (hgap : ∀ b ∈ gap, isBlankChar b = true) :
    (seam us gap).skipBlanks = seam (us ++ gap) [] := by
  rw [skipBlanks_seam, List.takeWhile_eq_self_iff.2 hgap, List.dropWhile_eq_nil_iff.2 hgap]

theorem skipBlanks_gap (us : List Char) {gap : List Char}
    (hgap : ∀ b ∈ gap, isBlankChar b = true) {c : Char} (hc : isBlankChar c = false)
    (cs : List Char) : (seam us (gap ++ c :: cs)).skipBlanks = seam (us ++ gap) (c :: cs) := by
  rw [skipBlanks_seam, List.takeWhile_append_of_pos hgap, List.dropWhile_append_of_pos hgap,
    List.takeWhile_cons_of_neg (by simp [hc]), List.dropWhile_cons_of_neg (by simp [hc]),
    List.append_nil]

private theorem skipWhile_seam_class {p : UInt8 → Bool} {k : ByteClass} (hk : k ≠ .other)
    (hp : ∀ b, p b = k.joins (.ofByte b)) (us vs : List Char) (c : Char)
    (hc : ByteClass.ofChar c = k) (hself : k.joins k = true) :
    (seam us (c :: vs)).skipWhile p = seam (us ++ c :: k.run vs) (k.pastRun vs) := by
  have hascii : ∀ b, p b = true → b < 0x80 := by
    intro b hb
    rw [hp] at hb
    refine ByteClass.lt_of_ofByte_ne_other b ?_
    rwa [← ByteClass.eq_of_joins hb]
  have hfirst : p (lead c) = true := by
    rw [hp]
    show k.joins (ByteClass.ofChar c) = true
    rw [hc, hself]
  rw [skipWhile_seam hascii]
  simp only [List.takeWhile_cons, List.dropWhile_cons, hfirst, if_true]
  simp only [hp]
  rfl

/-- Past a token means past its first character and all that join it. -/
theorem skipToken_seam (us vs : List Char) (c : Char) :
    (seam us (c :: vs)).skipToken
      = seam (us ++ c :: (ByteClass.ofChar c).run vs) ((ByteClass.ofChar c).pastRun vs) := by
  cases hc : ByteClass.ofChar c with
  | punct p =>
      have hascii : lead c < 0x80 := ByteClass.lead_lt_of_ofChar (by simp [hc])
      rw [skipToken, current_seam, show ByteClass.ofByte (lead c) = _ from hc,
        (ByteClass.run_alone (fun _ => rfl) vs).1, (ByteClass.run_alone (fun _ => rfl) vs).2]
      exact stepByte_seam us vs hascii
  | letter =>
      rw [skipToken, current_seam, show ByteClass.ofByte (lead c) = _ from hc]
      exact skipWhile_seam_class (by simp) ByteClass.isLetter_eq_joins us vs c hc rfl
  | digit =>
      rw [skipToken, current_seam, show ByteClass.ofByte (lead c) = _ from hc]
      exact skipWhile_seam_class (by simp) ByteClass.isDigit_eq_joins us vs c hc rfl
  | blank =>
      rw [skipToken, current_seam, show ByteClass.ofByte (lead c) = _ from hc,
        (ByteClass.run_alone (fun _ => rfl) vs).1, (ByteClass.run_alone (fun _ => rfl) vs).2]
      exact stepChar_seam us vs c
  | other =>
      rw [skipToken, current_seam, show ByteClass.ofByte (lead c) = _ from hc,
        (ByteClass.run_alone (fun _ => rfl) vs).1, (ByteClass.run_alone (fun _ => rfl) vs).2]
      exact stepChar_seam us vs c

end Cursor

/-! ### One scan -/

/-- The token that begins with `c` where `cs` come after it. -/
def Token.first (c : Char) (cs : List Char) : Token :=
  let text := String.ofList (c :: (ByteClass.ofChar c).run cs)
  ⟨(ByteClass.ofChar c).kind text, text⟩

@[simp] theorem Token.isEof_first (c : Char) (cs : List Char) :
    (Token.first c cs).isEof = false := by
  simp [Token.first, Token.isEof, ByteClass.kind_ne_eof]

/-- The length of a token in bytes is that of its characters. -/
theorem Token.bytes_first (c : Char) (cs : List Char) :
    Utf8.bytes (Token.first c cs).literal = encode (c :: (ByteClass.ofChar c).run cs) :=
  Utf8.bytes_ofList _

section Scan

variable {us gap cs : List Char} {c : Char}

/-- Where only blanks are left, a scan reads the end. -/
theorem Span.after_blanks (hgap : ∀ b ∈ gap, isBlankChar b = true) :
    Span.after (.ofList (us ++ gap)) (size us)
      = ⟨size us, size (us ++ gap), size (us ++ gap), .eof⟩ := by
  rw [Span.after, Cursor.ofOffset_seam, Cursor.skipBlanks_blanks us hgap, if_pos (by simp)]
  rfl

/-- Otherwise it reads the lexeme after the blanks. -/
theorem Span.after_gap (hgap : ∀ b ∈ gap, isBlankChar b = true) (hc : isBlankChar c = false) :
    Span.after (.ofList (us ++ (gap ++ c :: cs))) (size us)
      = ⟨size us, size (us ++ gap), size (us ++ gap ++ c :: (ByteClass.ofChar c).run cs),
          Token.first c cs⟩ := by
  rw [Span.after, Cursor.ofOffset_seam, Cursor.skipBlanks_gap us hgap hc, if_neg (by simp),
    Cursor.skipToken_seam, Cursor.current_seam]
  simp only [Cursor.pos_seam, Cursor.between_seam]
  rfl

end Scan

end MonkeyTokens
