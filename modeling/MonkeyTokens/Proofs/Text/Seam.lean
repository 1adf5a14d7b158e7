/-
A cursor on the seam of two parts of a text.

Every place where a scan begins or stops lies between two characters, so it cuts the text
in two.  This file says what the movements of a cursor do there: each moves characters
from the part ahead to the part behind.  For a run this takes that the run is one of ASCII
bytes, since only these are whole characters.
-/
import MonkeyTokens.Proofs.Text.Encoding
import MonkeyTokens.Text.Cursor

namespace MonkeyTokens.Cursor

open Utf8 (lead trail encode size)

/-- The cursor with `behind` before it and `ahead` after it. -/
def seam (behind ahead : List Char) : Cursor :=
  ⟨.ofList (behind ++ ahead), size behind⟩

@[simp] theorem source_seam (us vs : List Char) : (seam us vs).source = .ofList (us ++ vs) := rfl

@[simp] theorem pos_seam (us vs : List Char) : (seam us vs).pos = size us := rfl

theorem seam_append (us vs ws : List Char) :
    seam (us ++ vs) ws = ⟨.ofList (us ++ (vs ++ ws)), size (us ++ vs)⟩ := by
  rw [seam, List.append_assoc]

/-- Any cursor reads the bytes of its text. -/
theorem current_eq (c : Cursor) : c.current = (Utf8.bytes c.source)[c.pos]?.getD 0 := by
  unfold current
  split
  · rename_i h
    have hlt : c.pos < (Utf8.bytes c.source).length := by
      rw [Utf8.length_bytes]
      exact h
    rw [List.getElem?_eq_getElem hlt]
    rfl
  · rename_i h
    have hle : (Utf8.bytes c.source).length ≤ c.pos := by
      rw [Utf8.length_bytes]
      exact Nat.not_lt.1 h
    rw [List.getElem?_eq_none hle]
    rfl

@[simp] theorem atEnd_seam (us vs : List Char) : (seam us vs).atEnd = vs.isEmpty := by
  cases vs with
  | nil => simp [atEnd]
  | cons c vs =>
      have hpos := c.utf8Size_pos
      simp [atEnd]
      omega

@[simp] theorem current_seam (us vs : List Char) (c : Char) :
    (seam us (c :: vs)).current = lead c := by
  rw [current_eq, source_seam, pos_seam, Utf8.bytes_ofList, Utf8.encode_append,
    List.getElem?_append_right (by simp), Utf8.length_encode, Nat.sub_self, Utf8.encode_cons,
    Utf8.utf8EncodeChar_eq]
  rfl

/-! ### Movement -/

/-- A step over a character is one. -/
theorem stepChar_seam (us vs : List Char) (c : Char) :
    (seam us (c :: vs)).stepChar = seam (us ++ [c]) vs := by
  have hend : (seam us (c :: vs)).atEnd = false := by simp
  have hmin : min (size us + c.utf8Size) (size (us ++ c :: vs)) = size us + c.utf8Size := by
    simp only [Utf8.size_append, Utf8.size_cons]
    omega
  rw [stepChar, if_neg (by simp [hend]), current_seam, (Utf8.leadWidth_lead c).1, source_seam,
    Utf8.utf8ByteSize_ofList, pos_seam, hmin, seam_append, Utf8.size_append]
  rfl

/-- A step over a byte is a step over a character where this has no other byte. -/
theorem stepByte_seam (us vs : List Char) {c : Char} (h : lead c < 0x80) :
    (seam us (c :: vs)).stepByte = seam (us ++ [c]) vs := by
  have hend : (seam us (c :: vs)).atEnd = false := by simp
  rw [stepByte, if_neg (by simp [hend]), seam_append, Utf8.size_append, Utf8.size_cons,
    Utf8.lead_lt_iff.1 h]
  rfl

/-- A run of ASCII characters is passed character by character. -/
theorem skipWhile_seam {p : UInt8 → Bool} (hp : ∀ b, p b = true → b < 0x80)
    (us vs : List Char) :
    (seam us vs).skipWhile p
      = seam (us ++ vs.takeWhile fun c => p (lead c)) (vs.dropWhile fun c => p (lead c)) := by
  induction vs generalizing us with
  | nil =>
      rw [skipWhile, dif_neg (by simp)]
      simp
  | cons c vs ih =>
      have hlt : (seam us (c :: vs)).pos < (seam us (c :: vs)).source.utf8ByteSize :=
        atEnd_eq_false_iff.1 (by simp)
      by_cases hc : p (lead c) = true
      · have hstep := stepByte_seam us vs (hp _ hc)
        rw [stepByte, if_neg (by simp)] at hstep
        rw [skipWhile, dif_pos ⟨hlt, by simpa using hc⟩, hstep, ih]
        simp [hc]
      · rw [skipWhile, dif_neg (by simp [hc])]
        simp [hc]

/-- Between two characters there is no continuation to pass. -/
theorem skipWhile_isContinuation_seam (us vs : List Char) :
    (seam us vs).skipWhile Utf8.isContinuation = seam us vs := by
  rw [skipWhile, dif_neg]
  intro hex
  obtain ⟨hlt, hcont⟩ := hex
  cases vs with
  | nil => simp at hlt
  | cons c vs =>
      rw [current_seam, (Utf8.leadWidth_lead c).2] at hcont
      cases hcont

/-- An offset between two characters is where the cursor is put. -/
theorem ofOffset_seam (us vs : List Char) :
    ofOffset (.ofList (us ++ vs)) (size us) = seam us vs := by
  have hmin : min (size us) (size (us ++ vs)) = size us := by simp
  rw [ofOffset, Utf8.utf8ByteSize_ofList, hmin]
  exact skipWhile_isContinuation_seam us vs

/-! ### Cutting out -/

theorem isValid_size (us vs : List Char) :
    String.Pos.Raw.IsValid (.ofList (us ++ vs)) ⟨size us⟩ := by
  rw [String.Pos.Raw.isValid_iff_exists_append]
  refine ⟨.ofList us, .ofList vs, String.ofList_append, ?_⟩
  apply String.Pos.Raw.ext
  exact (Utf8.utf8ByteSize_ofList us).symm

/-- The bytes of a piece are those of the text from its start to its stop. -/
theorem bytes_between {c : Cursor} {start stop : Nat}
    (hstart : String.Pos.Raw.IsValid c.source ⟨start⟩)
    (hstop : String.Pos.Raw.IsValid c.source ⟨stop⟩) :
    Utf8.bytes (c.between start stop) = Utf8.slice (Utf8.bytes c.source) start stop := by
  rw [between, dif_pos ⟨hstart, hstop⟩, Utf8.bytes_extract]

/-- What lies between two places of a text is cut out as it is. -/
theorem between_seam (us vs ws : List Char) :
    (seam (us ++ vs) ws).between (size us) (size (us ++ vs)) = .ofList vs := by
  apply Utf8.bytes_injective
  rw [bytes_between, source_seam, Utf8.bytes_ofList, Utf8.bytes_ofList, Utf8.slice_encode]
  · rw [source_seam, List.append_assoc]
    exact isValid_size us (vs ++ ws)
  · exact isValid_size (us ++ vs) ws

end MonkeyTokens.Cursor
