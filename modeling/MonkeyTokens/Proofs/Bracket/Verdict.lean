/-
What the standing of a token stream says of its brackets.

The bracket stack reads the marks among the tokens as `walk` does, and so its verdicts are
statements about the language: the stream is a word of it, or can be completed to one, or
has a closer that no word has at that place.
-/
import Mathlib.Logic.ExistsUnique
import MonkeyTokens.Bracket.Stack
import MonkeyTokens.Proofs.Bracket.Dyck

namespace MonkeyTokens

/-- The mark that a kind of token stands for, if it is a bracket. -/
def Kind.mark? : Kind → Option Mark
  | .punct (.opening b) => some (.opening b)
  | .punct (.closing b) => some (.closing b)
  | _ => none

/-- The brackets among tokens. -/
def marks (ts : List Token) : List Mark :=
  ts.filterMap (·.kind.mark?)

namespace BracketStack

/-- After a fault tokens change nothing. -/
theorem extend_of_fault {s : BracketStack} {fault : BracketFault} (h : s.fault = some fault)
    (ts : List Token) : s.extend ts = s := by
  induction ts with
  | nil => rfl
  | cons t ts ih => rw [extend_cons, push, h, ih]

/-- A token that is no bracket counts for nothing. -/
theorem push_of_mark?_eq_none {t : Token} (h : t.kind.mark? = none) (s : BracketStack) :
    s.push t = s := by
  unfold push
  split
  · rfl
  · split
    · rw [‹t.kind = _›] at h
      cases h
    · rw [‹t.kind = _›] at h
      cases h
    · rfl

theorem push_opening {t : Token} {b : Bracket} (h : t.kind.mark? = some (.opening b))
    (p : List Bracket) : push ⟨p, none⟩ t = ⟨b :: p, none⟩ := by
  unfold Kind.mark? at h
  split at h
  · cases h
    simp [push, *]
  · cases h
  · cases h

theorem push_closing {t : Token} {b : Bracket} (h : t.kind.mark? = some (.closing b))
    (p : List Bracket) : push ⟨p, none⟩ t = close ⟨p, none⟩ b := by
  unfold Kind.mark? at h
  split at h
  · cases h
  · cases h
    simp [push, *]
  · cases h

/-- **The stack reads tokens as `walk` reads their marks.** -/
theorem balance_extend (p : List Bracket) (ts : List Token) :
    (extend ⟨p, none⟩ ts).balance
      = match walk p (marks ts) with
        | .ok q => balance ⟨q, none⟩
        | .error fault => .broken fault := by
  induction ts generalizing p with
  | nil => rfl
  | cons t ts ih =>
      rw [extend_cons, marks, List.filterMap_cons]
      cases hm : t.kind.mark? with
      | none =>
          rw [push_of_mark?_eq_none hm]
          exact ih p
      | some m =>
          cases m with
          | opening b =>
              rw [push_opening hm]
              exact ih (b :: p)
          | closing b =>
              rw [push_closing hm]
              cases p with
              | nil =>
                  rw [close, extend_of_fault rfl]
                  rfl
              | cons e p =>
                  simp only [close, walk]
                  by_cases he : e = b
                  · rw [if_pos he, if_pos he]
                    exact ih p
                  · rw [if_neg he, if_neg he, extend_of_fault rfl]
                    rfl

end BracketStack

namespace Balance

variable {ts : List Token}

theorem ofTokens_eq (ts : List Token) :
    ofTokens ts = match walk [] (marks ts) with
      | .ok [] => .complete
      | .ok (b :: q) => .incomplete (b :: q).length
      | .error fault => .broken fault := by
  rw [ofTokens, BracketStack.empty, BracketStack.balance_extend]
  rcases walk [] (marks ts) with fault | ⟨_ | ⟨b, q⟩⟩ <;> rfl

theorem eq_complete_iff_walk : ofTokens ts = .complete ↔ walk [] (marks ts) = .ok [] := by
  rw [ofTokens_eq]
  rcases walk [] (marks ts) with fault | ⟨_ | ⟨b, q⟩⟩ <;> simp

theorem eq_incomplete_iff_walk {n : Nat} :
    ofTokens ts = .incomplete n ↔ ∃ q, walk [] (marks ts) = .ok q ∧ q ≠ [] ∧ q.length = n := by
  rw [ofTokens_eq]
  rcases walk [] (marks ts) with fault | ⟨_ | ⟨b, q⟩⟩ <;> simp

theorem eq_broken_iff_walk {fault : BracketFault} :
    ofTokens ts = .broken fault ↔ walk [] (marks ts) = .error fault := by
  rw [ofTokens_eq]
  rcases walk [] (marks ts) with fault | ⟨_ | ⟨b, q⟩⟩ <;> simp

/-! ### Streams that are in order -/

theorem eq_complete_iff_dyck : ofTokens ts = .complete ↔ Dyck (marks ts) := by
  rw [eq_complete_iff_walk, dyck_iff_walk]

theorem exists_incomplete_iff :
    (∃ n, ofTokens ts = .incomplete n) ↔ ¬ Dyck (marks ts) ∧ Viable (marks ts) := by
  simp only [eq_incomplete_iff_walk]
  rw [dyck_iff_walk, viable_iff_walk]
  constructor
  · intro hex
    obtain ⟨n, q, hq, hne, -⟩ := hex
    refine ⟨fun hnil => ?_, q, hq⟩
    rw [hq, Except.ok.injEq] at hnil
    exact hne hnil
  · intro hex
    obtain ⟨hnot, q, hq⟩ := hex
    refine ⟨q.length, q, hq, ?_, rfl⟩
    intro heq
    subst heq
    exact hnot hq

/-- **What is open tells how a stream can be completed.** -/
theorem completions_of_incomplete {n : Nat} (h : ofTokens ts = .incomplete n) :
    1 ≤ n
      ∧ (∃! c, OnlyClosers c ∧ Dyck (marks ts ++ c))
      ∧ (∀ c, OnlyClosers c → Dyck (marks ts ++ c) → c.length = n)
      ∧ ∀ w, Dyck (marks ts ++ w) → n ≤ w.length := by
  obtain ⟨q, hq, hne, rfl⟩ := eq_incomplete_iff_walk.1 h
  have hunique : ∀ c, OnlyClosers c → Dyck (marks ts ++ c) → c = q.map .closing := by
    intro c hc hd
    exact eq_closers_of_walk hc ((dyck_append_iff hq).1 hd)
  refine ⟨List.length_pos_iff.2 hne, ?_, ?_, ?_⟩
  · refine ⟨q.map .closing, ⟨onlyClosers_map q, (dyck_append_iff hq).2 (walk_closers q)⟩, ?_⟩
    intro c hc
    exact hunique c hc.1 hc.2
  · intro c hc hd
    rw [hunique c hc hd, List.length_map]
  · intro w hd
    have hle := length_le_of_walk ((dyck_append_iff hq).1 hd)
    rwa [List.length_nil, Nat.zero_add] at hle

/-! ### Streams that are broken -/

/-- `m` is the first mark of `d` with which it can no longer be completed, and `u` is what comes
before it. -/
structure FirstWrong (d u : List Mark) (m : Mark) : Prop where
  here : u ++ [m] <+: d
  dead : ¬ Viable (u ++ [m])
  alive : ∀ v, v <+: u → Viable v

/-- The first wrong mark is the closer at which `walk` stops. -/
theorem FirstWrong.walk_eq {d u : List Mark} {m : Mark} (h : FirstWrong d u m) :
    ∃ f q fault, m = .closing f ∧ walk [] u = .ok q ∧ walk q [.closing f] = .error fault
      ∧ walk [] d = .error fault := by
  obtain ⟨⟨rest, hrest⟩, hdead, halive⟩ := h
  have hviable := halive u List.prefix_rfl
  obtain ⟨q, hq⟩ := viable_iff_walk.1 hviable
  cases m with
  | opening b => exact absurd (viable_append_opening hviable b) hdead
  | closing f =>
      cases hf : walk q [.closing f] with
      | ok q' =>
          refine absurd (viable_iff_walk.2 ⟨q', ?_⟩) hdead
          rw [walk_append_of_ok hq, hf]
      | error fault =>
          refine ⟨f, q, fault, rfl, hq, hf, ?_⟩
          rw [← hrest]
          apply walk_append_of_error
          rw [walk_append_of_ok hq, hf]

theorem not_viable_iff_firstWrong {d : List Mark} :
    ¬ Viable d ↔ ∃ u m, FirstWrong d u m := by
  rw [viable_iff_walk]
  constructor
  · intro h
    cases hd : walk [] d with
    | ok q => exact absurd ⟨q, hd⟩ h
    | error fault =>
        obtain ⟨u, f, rest, q, rfl, hu, hf⟩ := walk_error hd
        refine ⟨u, .closing f, ⟨rest, by simp⟩, ?_, ?_⟩
        · rw [viable_iff_walk, walk_append_of_ok hu, hf]
          intro hex
          obtain ⟨q', hq'⟩ := hex
          cases hq'
        · intro v hv
          obtain ⟨v', rfl⟩ := hv
          exact (viable_iff_walk.2 ⟨q, hu⟩).of_append
  · intro hex hq
    obtain ⟨u, m, h⟩ := hex
    obtain ⟨q, hq⟩ := hq
    obtain ⟨f, q', fault, -, -, -, hd⟩ := h.walk_eq
    rw [hd] at hq
    cases hq

/-- **The first wrong closer tells what a broken stream is reported as.** -/
theorem verdict_of_firstWrong {u : List Mark} {m : Mark} (h : FirstWrong (marks ts) u m) :
    ∃ f, m = .closing f
      ∧ (ofTokens ts = .broken (.unopened f) ↔ Dyck u)
      ∧ ((∃ e, ofTokens ts = .broken (.mismatched e f)) ↔ ¬ Dyck u)
      ∧ ∀ e, ofTokens ts = .broken (.mismatched e f) →
          e ≠ f ∧ ∀ e', Viable (u ++ [.closing e']) ↔ e' = e := by
  obtain ⟨f, q, fault, rfl, hu, hf, hd⟩ := h.walk_eq
  refine ⟨f, rfl, ?_⟩
  simp only [eq_broken_iff_walk, hd, dyck_iff_walk, hu, viable_append_closing_iff hu]
  cases q with
  | nil =>
      cases hf
      simp
  | cons e q =>
      by_cases he : e = f
      · rw [walk, if_pos he] at hf
        cases hf
      · rw [walk, if_neg he] at hf
        cases hf
        refine ⟨by simp, by simp, ?_⟩
        intro e' heq
        cases heq
        exact ⟨he, fun e' => by simp [eq_comm]⟩

/-- **The standing of a token stream decides where its brackets stand in the language.** -/
theorem ofTokens_decides_dyck (ts : List Token) :
    (ofTokens ts = .complete ↔ Dyck (marks ts))
      ∧ ((∃ n, ofTokens ts = .incomplete n) ↔ ¬ Dyck (marks ts) ∧ Viable (marks ts))
      ∧ (∀ n, ofTokens ts = .incomplete n → 1 ≤ n
          ∧ (∃! c, OnlyClosers c ∧ Dyck (marks ts ++ c))
          ∧ (∀ c, OnlyClosers c → Dyck (marks ts ++ c) → c.length = n)
          ∧ ∀ w, Dyck (marks ts ++ w) → n ≤ w.length)
      ∧ (¬ Viable (marks ts) ↔ ∃ u m, FirstWrong (marks ts) u m)
      ∧ (∀ u m, FirstWrong (marks ts) u m → ∃ f, m = .closing f
          ∧ (ofTokens ts = .broken (.unopened f) ↔ Dyck u)
          ∧ ((∃ e, ofTokens ts = .broken (.mismatched e f)) ↔ ¬ Dyck u)
          ∧ ∀ e, ofTokens ts = .broken (.mismatched e f) →
              e ≠ f ∧ ∀ e', Viable (u ++ [.closing e']) ↔ e' = e)
      ∧ ((ofTokens ts).isSettled = false ↔ ¬ Dyck (marks ts) ∧ Viable (marks ts)) := by
  refine ⟨eq_complete_iff_dyck, exists_incomplete_iff, fun _ => completions_of_incomplete,
    not_viable_iff_firstWrong, fun _ _ => verdict_of_firstWrong, ?_⟩
  rw [isSettled_eq_false_iff, exists_incomplete_iff]

end Balance

end MonkeyTokens
