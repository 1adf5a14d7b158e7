/-
Two ways to find the next boundary.

A step over a character trusts the width that the first byte announces.  A cursor that is put
at an offset looks at the bytes from there on, for the first that is no continuation.  The
one way reads the bytes that begin characters and the other those that do not, so neither
notices what the other relies on.

They come to the same place (`stepChar_eq_ofOffset`).  So the steps from the beginning of a
text come to all of its boundaries, to each once and in order (`bijOn_charPlace`), and no
boundary is farther than the three continuations that a character can have
(`FirstBoundary.le_add_three`).
-/
import Mathlib.Data.Nat.SuccPred
import Mathlib.Order.Interval.Set.Monotone
import MonkeyTokens.Proofs.Text.Boundary

namespace MonkeyTokens

open Utf8 (size)

/-! ### The search from an offset -/

/-- The search for a boundary passes three bytes at most. -/
theorem FirstBoundary.le_add_three {source : String} {pos boundary : Nat}
    (h : FirstBoundary source pos boundary) : boundary ≤ min pos source.utf8ByteSize + 3 := by
  obtain ⟨cs, rfl⟩ := source.exists_eq_ofList
  rw [FirstBoundary, Utf8.utf8ByteSize_ofList] at h
  rw [Utf8.utf8ByteSize_ofList]
  rcases split_at (Nat.min_le_right pos (size cs)) with
    ⟨us, vs, rfl, hpos⟩ | ⟨us, c, vs, rfl, hlo, hhi⟩
  · have hle := h.2 ⟨Nat.le_of_eq hpos, Cursor.isValid_size us vs⟩
    omega
  · -- The end of the character is a boundary, and no character has more than four bytes.
    have hvalid := Cursor.isValid_size (us ++ [c]) vs
    rw [List.append_assoc, Utf8.size_append, Utf8.size_cons, Utf8.size_nil, Nat.add_zero] at hvalid
    have hle := h.2 ⟨Nat.le_of_lt hhi, hvalid⟩
    have hfour := c.utf8Size_le_four
    omega

namespace Cursor

/-- The search stops exactly at the boundaries. -/
theorem isValid_iff_stops {source : String} {pos : Nat} (hpos : pos ≤ source.utf8ByteSize) :
    String.Pos.Raw.IsValid source ⟨pos⟩ ↔ (Cursor.mk source pos).atEnd = true
      ∨ Utf8.isContinuation (Cursor.mk source pos).current = false := by
  obtain ⟨cs, rfl⟩ := source.exists_eq_ofList
  rw [Utf8.utf8ByteSize_ofList] at hpos
  rcases split_at hpos with ⟨us, vs, rfl, rfl⟩ | ⟨us, c, vs, rfl, hlo, hhi⟩
  · refine iff_of_true (isValid_size us vs) ?_
    rw [show Cursor.mk (.ofList (us ++ vs)) (size us) = seam us vs from rfl]
    cases vs with
    | nil => exact .inl (by simp)
    | cons c vs =>
        right
        rw [current_seam]
        exact (Utf8.leadWidth_lead c).2
  · refine iff_of_false (not_isValid_inside hlo hhi) ?_
    rw [isContinuation_current_inside hlo hhi, atEnd]
    simp only [Utf8.utf8ByteSize_ofList, Utf8.size_append, Utf8.size_cons, decide_eq_true_eq,
      Bool.true_eq_false, or_false]
    omega

/-- A cursor is put at the first boundary from its offset on. -/
theorem firstBoundary_ofOffset (source : String) (pos : Nat) :
    FirstBoundary source pos (ofOffset source pos).pos := by
  obtain ⟨cs, rfl⟩ := source.exists_eq_ofList
  obtain ⟨us, vs, rfl, hseam, hfirst⟩ := exists_ofOffset_eq_seam cs pos
  rwa [hseam]

/-- At a boundary there is nothing to search. -/
theorem ofOffset_of_isValid {source : String} {pos : Nat}
    (h : String.Pos.Raw.IsValid source ⟨pos⟩) : ofOffset source pos = ⟨source, pos⟩ := by
  obtain ⟨us, vs, rfl, rfl⟩ := exists_split h
  exact ofOffset_seam us vs

/-- Searching again from where the search stopped finds the same. -/
theorem ofOffset_pos_ofOffset (source : String) (pos : Nat) :
    ofOffset source (ofOffset source pos).pos = ofOffset source pos := by
  rw [ofOffset_of_isValid (firstBoundary_ofOffset source pos).1.2]
  exact congrArg (Cursor.mk · _) (source_ofOffset source pos).symm

/-! ### The step over a character -/

/-- The announced width of a character leads to where the search from its second byte does. -/
theorem stepChar_eq_ofOffset {source : String} {pos : Nat}
    (h : String.Pos.Raw.IsValid source ⟨pos⟩) (hlt : pos < source.utf8ByteSize) :
    (Cursor.mk source pos).stepChar = ofOffset source (pos + 1) := by
  obtain ⟨us, vs, rfl, rfl⟩ := exists_split h
  cases vs with
  | nil => simp at hlt
  | cons c vs =>
      have hwidth := c.utf8Size_pos
      have hmin : min (size us + 1) (String.ofList (us ++ c :: vs)).utf8ByteSize = size us + 1 := by
        rw [Utf8.utf8ByteSize_ofList, Utf8.size_append, Utf8.size_cons]
        omega
      rw [ofOffset, hmin, skipWhile_isContinuation_inside (Nat.lt_succ_self _) (by omega)]
      exact stepChar_seam us vs c

/-- Steps over characters move them from the part ahead to the part behind. -/
theorem iterate_stepChar_seam (us vs ws : List Char) :
    stepChar^[vs.length] (seam us (vs ++ ws)) = seam (us ++ vs) ws := by
  induction vs generalizing us with
  | nil => simp
  | cons c vs ih =>
      rw [List.length_cons, Function.iterate_succ_apply, List.cons_append, stepChar_seam, ih,
        List.append_assoc, List.singleton_append]

/-- At the end there is no step. -/
theorem stepChar_of_atEnd {c : Cursor} (h : c.atEnd = true) : c.stepChar = c := by
  rw [stepChar, if_pos h]

end Cursor

/-! ### All boundaries, one step after the other -/

/-- The cursor after some steps over characters from the beginning of a text. -/
def Cursor.afterChars (source : String) (k : Nat) : Cursor :=
  stepChar^[k] (ofText source)

/-- Where the cursor stands after some steps over characters from the beginning of a text. -/
def charPlace (source : String) (k : Nat) : Nat :=
  (Cursor.afterChars source k).pos

namespace Cursor

theorem afterChars_ofList (us vs : List Char) :
    afterChars (.ofList (us ++ vs)) us.length = seam us vs :=
  iterate_stepChar_seam [] us vs

/-- The steps that a text has characters for split it in two. -/
theorem exists_afterChars_eq_seam {source : String} {k : Nat} (hk : k ≤ source.length) :
    ∃ us vs, source = .ofList (us ++ vs) ∧ k = us.length ∧ afterChars source k = seam us vs := by
  obtain ⟨cs, rfl⟩ := source.exists_eq_ofList
  rw [String.length_ofList] at hk
  have hlen : (cs.take k).length = k := by simpa using hk
  have hseam := afterChars_ofList (cs.take k) (cs.drop k)
  rw [List.take_append_drop, hlen] at hseam
  exact ⟨cs.take k, cs.drop k, by rw [List.take_append_drop], hlen.symm, hseam⟩

/-- After as many steps as the text has characters the cursor is at its end, and stays there. -/
theorem afterChars_of_length_le {source : String} {k : Nat} (hk : source.length ≤ k) :
    afterChars source k = ⟨source, source.utf8ByteSize⟩ := by
  obtain ⟨cs, rfl⟩ := source.exists_eq_ofList
  rw [String.length_ofList] at hk
  obtain ⟨j, rfl⟩ := Nat.exists_eq_add_of_le' hk
  have hall := afterChars_ofList cs []
  rw [List.append_nil] at hall
  have hfixed : (seam cs []).stepChar = seam cs [] := stepChar_of_atEnd (by simp)
  rw [afterChars, Function.iterate_add_apply]
  rw [afterChars] at hall
  rw [hall, Function.iterate_fixed hfixed, Utf8.utf8ByteSize_ofList, seam, List.append_nil]

end Cursor

variable {source : String}

/-- The end is where the steps lead. -/
theorem charPlace_of_length_le {k : Nat} (hk : source.length ≤ k) :
    charPlace source k = source.utf8ByteSize := by
  rw [charPlace, Cursor.afterChars_of_length_le hk]

/-- Each step before the end leads farther. -/
theorem strictMonoOn_charPlace (source : String) :
    StrictMonoOn (charPlace source) (Set.Iic source.length) := by
  refine strictMonoOn_Iic_of_lt_succ ?_
  intro k hk
  obtain ⟨us, vs, hsource, hlen, hseam⟩ := Cursor.exists_afterChars_eq_seam (Nat.le_of_lt hk)
  have hstep : Cursor.afterChars source (k + 1) = (Cursor.afterChars source k).stepChar :=
    Function.iterate_succ_apply' ..
  rw [Nat.succ_eq_succ, charPlace, charPlace, hstep]
  refine Cursor.pos_lt_pos_stepChar ?_
  rw [hseam, Cursor.atEnd_seam]
  cases vs with
  | nil =>
      rw [hsource, List.append_nil, String.length_ofList] at hk
      omega
  | cons c vs => rfl

/-- The steps lead to every boundary, and to each of them once. -/
theorem bijOn_charPlace (source : String) :
    Set.BijOn (charPlace source) (Set.Iic source.length)
      {i | String.Pos.Raw.IsValid source ⟨i⟩} := by
  refine ⟨?_, (strictMonoOn_charPlace source).injOn, ?_⟩
  · intro k hk
    obtain ⟨us, vs, rfl, -, hseam⟩ := Cursor.exists_afterChars_eq_seam hk
    rw [charPlace, hseam]
    exact Cursor.isValid_size us vs
  · intro i hi
    obtain ⟨us, vs, rfl, rfl⟩ := exists_split hi
    refine ⟨us.length, ?_, ?_⟩
    · rw [Set.mem_Iic, String.length_ofList, List.length_append]
      exact Nat.le_add_right _ _
    · rw [charPlace, Cursor.afterChars_ofList]
      rfl

/-- **The two ways to find a boundary agree.**  The search from an offset passes three bytes at
most and stops at the first boundary, and a boundary is where it has nothing to pass; it finds
what it found already, and from farther on nothing earlier.  A step over a character leads
where the search from its second byte leads, and so such steps come from the beginning of a
text to each of its boundaries once, in order, and in the end to its end. -/
theorem boundary_searches_agree (source : String) :
    (∀ pos, FirstBoundary source pos (Cursor.ofOffset source pos).pos
        ∧ (Cursor.ofOffset source pos).pos ≤ min pos source.utf8ByteSize + 3
        ∧ Cursor.ofOffset source (Cursor.ofOffset source pos).pos = Cursor.ofOffset source pos)
      ∧ (∀ pos ≤ source.utf8ByteSize, String.Pos.Raw.IsValid source ⟨pos⟩ ↔
          (Cursor.mk source pos).atEnd = true
            ∨ Utf8.isContinuation (Cursor.mk source pos).current = false)
      ∧ Monotone (fun pos => (Cursor.ofOffset source pos).pos)
      ∧ (∀ pos, String.Pos.Raw.IsValid source ⟨pos⟩ → pos < source.utf8ByteSize →
          (Cursor.mk source pos).stepChar = Cursor.ofOffset source (pos + 1))
      ∧ StrictMonoOn (charPlace source) (Set.Iic source.length)
      ∧ Set.BijOn (charPlace source) (Set.Iic source.length)
          {i | String.Pos.Raw.IsValid source ⟨i⟩}
      ∧ ∀ k, source.length ≤ k → charPlace source k = source.utf8ByteSize := by
  refine ⟨?_, fun _ => Cursor.isValid_iff_stops, ?_, fun _ => Cursor.stepChar_eq_ofOffset,
    strictMonoOn_charPlace source, bijOn_charPlace source, fun _ => charPlace_of_length_le⟩
  · intro pos
    have hfirst := Cursor.firstBoundary_ofOffset source pos
    exact ⟨hfirst, hfirst.le_add_three, Cursor.ofOffset_pos_ofOffset source pos⟩
  · intro pos pos' hle
    exact (Cursor.firstBoundary_ofOffset source pos).mono hle
      (Cursor.firstBoundary_ofOffset source pos')

end MonkeyTokens
