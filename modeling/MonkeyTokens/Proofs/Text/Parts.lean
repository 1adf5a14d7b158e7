/-
When the parts of a list can be told apart.

Three ways of putting parts together are in use: words of a code one after another, parts
with a mark between them, and groups that begin with a mark.  Each is undone if no word
begins with another and no part has the mark in it, and then equal wholes have equal parts.
-/
import Mathlib.Data.List.TakeWhile

namespace MonkeyTokens

variable {α β : Type}

/-- A code in which the word at the beginning of a list can be told from the list. -/
def PrefixFree (word : α → List β) : Prop :=
  ∀ (a b : α) (us vs : List β), word a ++ us = word b ++ vs → a = b

namespace PrefixFree

variable {word : α → List β}

/-- What can read the first symbol of a list makes the code prefix free. -/
theorem of_reader (read : List β → Option α) (h : ∀ a us, read (word a ++ us) = some a) :
    PrefixFree word := by
  intro a b us vs heq
  have hread := h a us
  rw [heq, h b vs, Option.some.injEq] at hread
  exact hread.symm

/-- **Lists of symbols that are written alike are equal.** -/
theorem flatMap_injective (h : PrefixFree word) (hne : ∀ a, word a ≠ []) {as bs : List α}
    (heq : as.flatMap word = bs.flatMap word) : as = bs := by
  induction as generalizing bs with
  | nil =>
      rcases bs with _ | ⟨b, bs⟩
      · rfl
      · rw [List.flatMap_nil, List.flatMap_cons, eq_comm, List.append_eq_nil_iff] at heq
        exact absurd heq.1 (hne b)
  | cons a as ih =>
      rcases bs with _ | ⟨b, bs⟩
      · rw [List.flatMap_nil, List.flatMap_cons, List.append_eq_nil_iff] at heq
        exact absurd heq.1 (hne a)
      · rw [List.flatMap_cons, List.flatMap_cons] at heq
        have hab := h a b _ _ heq
        subst hab
        rw [ih (List.append_cancel_left heq)]

end PrefixFree

/-- The parts at the end of a list that satisfy a test, after one that does not. -/
theorem eq_of_append_cons_of_forall {p : α → Bool} {us us' vs vs' : List α} {a a' : α}
    (ha : p a = false) (ha' : p a' = false) (hvs : ∀ b ∈ vs, p b = true)
    (hvs' : ∀ b ∈ vs', p b = true) (h : us ++ a :: vs = us' ++ a' :: vs') : vs = vs' := by
  have htake : ∀ (us vs : List α) (a : α), p a = false → (∀ b ∈ vs, p b = true) →
      (us ++ a :: vs).reverse.takeWhile p = vs.reverse := by
    intro us vs a ha hvs
    rw [List.reverse_append, List.reverse_cons, List.append_assoc,
      List.takeWhile_append_of_pos (by simpa using hvs), List.singleton_append,
      List.takeWhile_cons_of_neg (by simp [ha]), List.append_nil]
  have hreverse := htake us vs a ha hvs
  rw [h, htake us' vs' a' ha' hvs'] at hreverse
  exact (List.reverse_inj.1 hreverse).symm

section Mark

variable {mark : α}

theorem takeWhile_append_mark [DecidableEq α] {us vs : List α} (hus : mark ∉ us)
    (hvs : ∀ a ∈ vs.head?, a = mark) : (us ++ vs).takeWhile (· ≠ mark) = us := by
  have hall : ∀ a ∈ us, decide (a ≠ mark) = true := by
    intro a ha
    rw [decide_eq_true_eq]
    intro heq
    exact hus (heq ▸ ha)
  have hnone : vs.takeWhile (· ≠ mark) = [] := by
    rcases vs with _ | ⟨a, vs⟩
    · rfl
    · simp [hvs a rfl]
  rw [List.takeWhile_append_of_pos hall, hnone, List.append_nil]

/-- The first mark divides a list in one way only. -/
theorem eq_of_append_mark {us vs us' vs' : List α} (hus : mark ∉ us) (hus' : mark ∉ us')
    (h : us ++ mark :: vs = us' ++ mark :: vs') : us = us' ∧ vs = vs' := by
  classical
  have htake := congrArg (List.takeWhile (· ≠ mark)) h
  rw [takeWhile_append_mark hus (by simp), takeWhile_append_mark hus' (by simp)] at htake
  subst htake
  exact ⟨rfl, (List.cons.inj (List.append_cancel_left h)).2⟩

/-- Groups that begin with a mark, which is nowhere else in them, are told apart. -/
theorem flatten_map_cons_injective {gs hs : List (List α)} (hgs : ∀ g ∈ gs, mark ∉ g)
    (hhs : ∀ h ∈ hs, mark ∉ h)
    (heq : (gs.map (mark :: ·)).flatten = (hs.map (mark :: ·)).flatten) : gs = hs := by
  classical
  have hhead : ∀ ls : List (List α), ∀ a ∈ (ls.map (mark :: ·)).flatten.head?, a = mark := by
    intro ls
    cases ls <;> simp [eq_comm]
  induction gs generalizing hs with
  | nil =>
      rcases hs with _ | ⟨h, hs⟩
      · rfl
      · simp at heq
  | cons g gs ih =>
      rcases hs with _ | ⟨h, hs⟩
      · simp at heq
      · rw [List.forall_mem_cons] at hgs hhs
        simp only [List.map_cons, List.flatten_cons, List.cons_append, List.cons.injEq,
          true_and] at heq
        have htake := congrArg (List.takeWhile (· ≠ mark)) heq
        rw [takeWhile_append_mark hgs.1 (hhead gs), takeWhile_append_mark hhs.1 (hhead hs)] at htake
        subst htake
        rw [ih hgs.2 hhs.2 (List.append_cancel_left heq)]

end Mark

end MonkeyTokens
