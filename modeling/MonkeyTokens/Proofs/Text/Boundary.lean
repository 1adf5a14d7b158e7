/-
Places between characters, and where a cursor is put that is given any other offset.

An offset into a text lies between two characters or inside one.  Put inside a character
the cursor passes the continuations that are left of it and stands after the character.
That is the first boundary from the offset on, and so every movement of a cursor that was
put anywhere begins on the seam of two parts of the text (`exists_ofOffset_eq_seam`).
-/
import Mathlib.Order.Bounds.Defs
import MonkeyTokens.Proofs.Text.Seam

namespace MonkeyTokens

open Utf8 (trail encode size)

/-- The first offset between two characters that does not come before `pos`, and the end of
the text where `pos` lies beyond it. -/
def FirstBoundary (source : String) (pos boundary : Nat) : Prop :=
  IsLeast {i | min pos source.utf8ByteSize ≤ i ∧ String.Pos.Raw.IsValid source ⟨i⟩} boundary

/-- An offset farther on does not have an earlier boundary. -/
theorem FirstBoundary.mono {source : String} {pos pos' b b' : Nat} (hle : pos ≤ pos')
    (h : FirstBoundary source pos b) (h' : FirstBoundary source pos' b') : b ≤ b' := by
  have hmin : min pos source.utf8ByteSize ≤ min pos' source.utf8ByteSize := by omega
  exact h.2 ⟨Nat.le_trans hmin h'.1.1, h'.1.2⟩

/-- The offsets between characters are the lengths of what a text begins with. -/
theorem isValid_iff_size {cs : List Char} {i : Nat} :
    String.Pos.Raw.IsValid (.ofList cs) ⟨i⟩ ↔ ∃ us vs, cs = us ++ vs ∧ i = size us := by
  constructor
  · intro h
    obtain ⟨s, t, hst, hi⟩ := String.Pos.Raw.isValid_iff_exists_append.1 h
    refine ⟨s.toList, t.toList, ?_, ?_⟩
    · rw [← String.toList_append, ← hst, String.toList_ofList]
    · rw [← Utf8.utf8ByteSize_eq_size]
      exact congrArg String.Pos.Raw.byteIdx hi
  · intro h
    obtain ⟨us, vs, rfl, rfl⟩ := h
    exact Cursor.isValid_size us vs

/-- A boundary splits its text in two. -/
theorem exists_split {source : String} {pos : Nat} (h : String.Pos.Raw.IsValid source ⟨pos⟩) :
    ∃ us vs, source = .ofList (us ++ vs) ∧ pos = size us := by
  obtain ⟨cs, rfl⟩ := source.exists_eq_ofList
  obtain ⟨us, vs, rfl, hpos⟩ := isValid_iff_size.1 h
  exact ⟨us, vs, rfl, hpos⟩

/-- An offset lies between two characters or inside one. -/
theorem split_at {cs : List Char} {i : Nat} (h : i ≤ size cs) :
    (∃ us vs, cs = us ++ vs ∧ i = size us)
      ∨ ∃ us c vs, cs = us ++ c :: vs ∧ size us < i ∧ i < size us + c.utf8Size := by
  induction cs generalizing i with
  | nil => exact .inl ⟨[], [], rfl, Nat.le_zero.1 h⟩
  | cons c cs ih =>
      rw [Utf8.size_cons] at h
      by_cases hzero : i = 0
      · exact .inl ⟨[], c :: cs, rfl, hzero⟩
      · by_cases hlt : i < c.utf8Size
        · right
          exact ⟨[], c, cs, rfl, Nat.pos_of_ne_zero hzero, by simpa using hlt⟩
        · rcases ih (i := i - c.utf8Size) (by omega) with
            ⟨us, vs, rfl, hi⟩ | ⟨us, d, vs, rfl, hlo, hhi⟩
          · left
            refine ⟨c :: us, vs, rfl, ?_⟩
            rw [Utf8.size_cons]
            omega
          · right
            refine ⟨c :: us, d, vs, rfl, ?_, ?_⟩
            · rw [Utf8.size_cons]
              omega
            · rw [Utf8.size_cons]
              omega

namespace Cursor

/-- Inside a character the cursor is at a continuation. -/
theorem isContinuation_current_inside {us vs : List Char} {c : Char} {i : Nat}
    (hlo : size us < i) (hhi : i < size us + c.utf8Size) :
    Utf8.isContinuation (Cursor.mk (.ofList (us ++ c :: vs)) i).current = true := by
  obtain ⟨k, rfl⟩ : ∃ k, i = size us + (k + 1) := ⟨i - size us - 1, by omega⟩
  have hlen : k < (trail c).length := by
    have hwidth := String.length_utf8EncodeChar c
    rw [Utf8.utf8EncodeChar_eq, List.length_cons] at hwidth
    omega
  have hbyte : (encode (us ++ c :: vs))[size us + (k + 1)]? = some (trail c)[k] := by
    rw [Utf8.encode_append, ← Utf8.length_encode us, List.getElem?_append_right (by omega),
      Nat.add_sub_cancel_left, Utf8.encode_cons, Utf8.utf8EncodeChar_eq, List.cons_append,
      List.getElem?_cons_succ, List.getElem?_append_left hlen, List.getElem?_eq_getElem hlen]
  rw [current_eq, Utf8.bytes_ofList, hbyte]
  exact Utf8.isContinuation_of_mem_trail (List.getElem_mem hlen)

/-- From inside a character the cursor goes on to its end. -/
theorem skipWhile_isContinuation_inside {us vs : List Char} {c : Char} {i : Nat}
    (hlo : size us < i) (hhi : i ≤ size us + c.utf8Size) :
    (Cursor.mk (.ofList (us ++ c :: vs)) i).skipWhile Utf8.isContinuation
      = seam (us ++ [c]) vs := by
  -- The induction is on what is left of the character.
  obtain ⟨left, hleft⟩ : ∃ left, i + left = size us + c.utf8Size := ⟨_, Nat.add_sub_cancel' hhi⟩
  induction left generalizing i with
  | zero =>
      have hseam : Cursor.mk (.ofList (us ++ c :: vs)) i = seam (us ++ [c]) vs := by
        rw [seam_append, Utf8.size_append, Utf8.size_cons, Utf8.size_nil, Nat.add_zero, ← hleft]
        rfl
      rw [hseam, skipWhile_isContinuation_seam]
  | succ left ih =>
      have hlt : i < (String.ofList (us ++ c :: vs)).utf8ByteSize := by
        rw [Utf8.utf8ByteSize_ofList, Utf8.size_append, Utf8.size_cons]
        omega
      rw [skipWhile, dif_pos ⟨hlt, isContinuation_current_inside hlo (by omega)⟩]
      show (Cursor.mk _ (i + 1)).skipWhile _ = _
      exact ih (by omega) (by omega) (by omega)

/-- What is a beginning of the text and no shorter than a place inside a character has the
character in it. -/
private theorem size_le_of_inside {us vs us' vs' : List Char} {c : Char} {i : Nat}
    (hlo : size us < i) (hsplit : us ++ c :: vs = us' ++ vs') (hle : i ≤ size us') :
    size us + c.utf8Size ≤ size us' := by
  rcases List.append_eq_append_iff.1 hsplit with ⟨as, rfl, has⟩ | ⟨bs, rfl, -⟩
  · cases as with
    | nil =>
        rw [List.append_nil] at hle
        omega
    | cons a as =>
        obtain ⟨rfl, -⟩ := List.cons.inj has
        rw [Utf8.size_append, Utf8.size_cons]
        omega
  · rw [Utf8.size_append] at hlo
    omega

/-- No boundary lies inside a character. -/
theorem not_isValid_inside {us vs : List Char} {c : Char} {i : Nat} (hlo : size us < i)
    (hhi : i < size us + c.utf8Size) : ¬ String.Pos.Raw.IsValid (.ofList (us ++ c :: vs)) ⟨i⟩ := by
  intro h
  obtain ⟨us', vs', hsplit, rfl⟩ := isValid_iff_size.1 h
  exact absurd (size_le_of_inside hlo hsplit (Nat.le_refl _)) (Nat.not_le.2 hhi)

/-- **Wherever a cursor is put, it stands on a seam**, and that is the first from the offset on. -/
theorem exists_ofOffset_eq_seam (cs : List Char) (pos : Nat) :
    ∃ us vs, cs = us ++ vs ∧ ofOffset (.ofList cs) pos = seam us vs
      ∧ FirstBoundary (.ofList cs) pos (size us) := by
  unfold FirstBoundary ofOffset
  rw [Utf8.utf8ByteSize_ofList]
  rcases split_at (Nat.min_le_right pos (size cs)) with
    ⟨us, vs, hcs, hpos⟩ | ⟨us, c, vs, hcs, hlo, hhi⟩
  · refine ⟨us, vs, hcs, ?_, ⟨Nat.le_of_eq hpos, isValid_iff_size.2 ⟨us, vs, hcs, rfl⟩⟩, ?_⟩
    · rw [hpos, hcs]
      exact skipWhile_isContinuation_seam us vs
    · intro i hi
      rw [← hpos]
      exact hi.1
  · have hsplit : cs = (us ++ [c]) ++ vs := by simpa using hcs
    have hsize : size (us ++ [c]) = size us + c.utf8Size := by simp
    refine ⟨us ++ [c], vs, hsplit, ?_, ⟨by omega, isValid_iff_size.2 ⟨_, vs, hsplit, rfl⟩⟩, ?_⟩
    · rw [hcs] at hlo hhi ⊢
      exact skipWhile_isContinuation_inside hlo (Nat.le_of_lt hhi)
    · intro i hi
      obtain ⟨us', vs', hcs', rfl⟩ := isValid_iff_size.1 hi.2
      rw [hsize]
      exact size_le_of_inside hlo (hcs ▸ hcs') hi.1

end Cursor

end MonkeyTokens
