/-
What a scan does not read.

A scan passes blanks, reads a token, and looks at one character more to see that the token is
over.  What stands before the place where it is called it does not know, except that it counts
offsets from the beginning of the text: a scan from a place is a scan of what is left of the
text, moved by what is not (`Span.after_append`).

So only what comes after matters, and of this only the part up to the character after the
token.  A part of a text that reaches beyond the token has settled the scan, whatever follows
the part (`Span.after_extend`).
-/
import MonkeyTokens.Proofs.Rejoining

namespace MonkeyTokens

open Utf8 (size)
open ByteClass (ofChar)

namespace Span

/-- A scan with all its offsets counted from `n` bytes farther back. -/
def moved (n : Nat) (s : Span) : Span :=
  ⟨n + s.origin, n + s.start, n + s.stop, s.token⟩

@[simp] theorem token_moved (n : Nat) (s : Span) : (s.moved n).token = s.token := rfl

@[simp] theorem stop_moved (n : Nat) (s : Span) : (s.moved n).stop = n + s.stop := rfl

/-! ### Nothing before the scan is read -/

section Beginning

variable {gap : List Char}

/-- Blanks alone, read from their beginning. -/
theorem after_zero_blanks (hgap : ∀ b ∈ gap, isBlankChar b = true) :
    Span.after (.ofList gap) 0 = ⟨0, size gap, size gap, .eof⟩ :=
  @after_blanks [] gap hgap

/-- The first token of a text. -/
theorem after_zero_gap (hgap : ∀ b ∈ gap, isBlankChar b = true) {c : Char}
    (hc : isBlankChar c = false) (cs : List Char) :
    Span.after (.ofList (gap ++ c :: cs)) 0
      = ⟨0, size gap, size (gap ++ c :: (ofChar c).run cs), Token.first c cs⟩ :=
  @after_gap [] gap cs c hgap hc

end Beginning

/-- Characters before a scan move its offsets and change nothing else. -/
theorem after_append (us vs : List Char) :
    Span.after (.ofList (us ++ vs)) (size us) = (Span.after (.ofList vs) 0).moved (size us) := by
  induction vs using scan_induction with
  | blanks gap hgap =>
      rw [after_blanks hgap, after_zero_blanks hgap]
      simp [moved]
  | token gap c cs hgap hc _ =>
      rw [after_gap hgap hc, after_zero_gap hgap hc]
      simp [moved]

/-- A scan is one of the text from the boundary of its offset on. -/
theorem after_eq_moved (source : String) (pos : Nat) :
    ∃ before rest : String, source = before ++ rest
      ∧ FirstBoundary source pos before.utf8ByteSize
      ∧ Span.after source pos
        = { (Span.after rest 0).moved before.utf8ByteSize with origin := pos } := by
  obtain ⟨us, vs, rfl, hfirst, hscan⟩ := after_boundary source pos
  refine ⟨.ofList us, .ofList vs, String.ofList_append, ?_, ?_⟩
  · rwa [Utf8.utf8ByteSize_ofList]
  · rw [hscan, after_append, Utf8.utf8ByteSize_ofList]

/-! ### Little after its token is read -/

/-- Blanks at the beginning of a text are passed. -/
theorem size_le_stop_of_blanks {gap : List Char} (hgap : ∀ b ∈ gap, isBlankChar b = true)
    (vs : List Char) : size gap ≤ (Span.after (.ofList (gap ++ vs)) 0).stop := by
  induction vs using scan_induction with
  | blanks gap' hgap' =>
      rw [after_zero_blanks (List.forall_mem_append.2 ⟨hgap, hgap'⟩), Utf8.size_append]
      exact Nat.le_add_right _ _
  | token gap' c cs hgap' hc _ =>
      rw [← List.append_assoc, after_zero_gap (List.forall_mem_append.2 ⟨hgap, hgap'⟩) hc]
      simp only [Utf8.size_append]
      omega

/-- **A scan that stops before the end of a part of the text has read this part only.** -/
theorem after_extend {xs vs : List Char}
    (h : (Span.after (.ofList (xs ++ vs)) 0).stop < size xs) (vs' : List Char) :
    Span.after (.ofList (xs ++ vs')) 0 = Span.after (.ofList (xs ++ vs)) 0 := by
  induction xs using scan_induction with
  | blanks gap hgap => exact absurd (size_le_stop_of_blanks hgap vs) (Nat.not_le.2 h)
  | token gap c cs hgap hc _ =>
      have hscan : ∀ ws, Span.after (.ofList (gap ++ c :: cs ++ ws)) 0
          = ⟨0, size gap, size (gap ++ c :: (ofChar c).run (cs ++ ws)),
              Token.first c (cs ++ ws)⟩ := by
        intro ws
        rw [List.append_assoc, List.cons_append, after_zero_gap hgap hc]
      rw [hscan] at h
      -- A run that reached the end of the part would stop there or beyond.
      have hpast : (ofChar c).pastRun cs ≠ [] := by
        intro hnil
        rw [(ByteClass.run_append_of_pastRun_eq_nil hnil vs).1] at h
        have hrun := (ofChar c).run_append_pastRun cs
        rw [hnil, List.append_nil] at hrun
        rw [hrun] at h
        simp only [Utf8.size_append, Utf8.size_cons] at h
        omega
      have hsame : ∀ ws, (ofChar c).run (cs ++ ws) = (ofChar c).run cs := fun ws =>
        (ByteClass.run_append_of_pastRun_ne_nil hpast ws).1
      rw [hscan, hscan]
      simp only [Token.first, hsame]

end Span

/-- **A scan is local.**  If it stops before the end of a part of the text, it reads the same
token wherever this part stands, and stops at the same place of the part.  And a scan from any
offset is one of the rest of the text from the first boundary on. -/
theorem scan_local :
    (∀ u x v : String,
      (Span.after (u ++ x ++ v) u.utf8ByteSize).stop < u.utf8ByteSize + x.utf8ByteSize →
      u.utf8ByteSize ≤ (Span.after (u ++ x ++ v) u.utf8ByteSize).stop
      ∧ ∀ u' v' : String,
        (Span.after (u' ++ x ++ v') u'.utf8ByteSize).token
          = (Span.after (u ++ x ++ v) u.utf8ByteSize).token
        ∧ (Span.after (u' ++ x ++ v') u'.utf8ByteSize).stop
          = (Span.after (u ++ x ++ v) u.utf8ByteSize).stop - u.utf8ByteSize + u'.utf8ByteSize)
    ∧ ∀ source pos, ∃ before rest : String, source = before ++ rest
      ∧ FirstBoundary source pos before.utf8ByteSize
      ∧ (Span.after source pos).token = (Span.after rest 0).token
      ∧ (Span.after source pos).stop = (Span.after rest 0).stop + before.utf8ByteSize := by
  constructor
  · intro u x v
    obtain ⟨us, rfl⟩ := u.exists_eq_ofList
    obtain ⟨xs, rfl⟩ := x.exists_eq_ofList
    obtain ⟨vs, rfl⟩ := v.exists_eq_ofList
    have hmoved : ∀ us vs : List Char,
        Span.after (.ofList us ++ .ofList xs ++ .ofList vs) (String.ofList us).utf8ByteSize
          = (Span.after (.ofList (xs ++ vs)) 0).moved (size us) := by
      intro us vs
      rw [← String.ofList_append, ← String.ofList_append, List.append_assoc,
        Utf8.utf8ByteSize_ofList, Span.after_append]
    rw [hmoved, Span.stop_moved, Utf8.utf8ByteSize_ofList, Utf8.utf8ByteSize_ofList]
    intro h
    refine ⟨Nat.le_add_right _ _, ?_⟩
    intro u' v'
    obtain ⟨us', rfl⟩ := u'.exists_eq_ofList
    obtain ⟨vs', rfl⟩ := v'.exists_eq_ofList
    rw [hmoved, Span.after_extend (Nat.lt_of_add_lt_add_left h) vs', Utf8.utf8ByteSize_ofList,
      Span.token_moved, Span.stop_moved]
    exact ⟨rfl, by omega⟩
  · intro source pos
    obtain ⟨before, rest, hsource, hfirst, hscan⟩ := Span.after_eq_moved source pos
    refine ⟨before, rest, hsource, hfirst, ?_, ?_⟩
    · rw [hscan]
      rfl
    · rw [hscan]
      exact Nat.add_comm _ _

/-- A reserved word after a blank, with a mark behind it, in two texts. -/
theorem scan_local_word :
    (Span.after ("é1" ++ " let+" ++ "x") "é1".utf8ByteSize).stop
        < "é1".utf8ByteSize + " let+".utf8ByteSize
      ∧ (Span.after ("(" ++ " let+" ++ "") "(".utf8ByteSize).token
        = (Span.after ("é1" ++ " let+" ++ "x") "é1".utf8ByteSize).token
      ∧ (Span.after ("(" ++ " let+" ++ "") "(".utf8ByteSize).stop
        = (Span.after ("é1" ++ " let+" ++ "x") "é1".utf8ByteSize).stop
          - "é1".utf8ByteSize + "(".utf8ByteSize := by
  have hstop : (Span.after ("é1" ++ " let+" ++ "x") "é1".utf8ByteSize).stop
      < "é1".utf8ByteSize + " let+".utf8ByteSize := by
    decide +kernel
  exact ⟨hstop, (scan_local.1 _ _ _ hstop).2 "(" ""⟩

end MonkeyTokens
