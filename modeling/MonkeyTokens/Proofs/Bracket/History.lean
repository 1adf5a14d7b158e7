/-
What a stack of brackets remembers.

A stack can be cleared, and copies of it can be kept and taken up again.  At any time its
value is the one that the tokens of its *history* give: those that came since it was last
empty, on the way that led to this value.  Taking up a copy goes back to the place where the
copy was kept, and so does the history, which is read off the steps from the last one on
(`history`).

The rest follows from what tokens do.  A wrong closer leaves part of the stack behind beside
the fault that it is reported as; but then nothing is read any more, so this part says nothing
and is gone when the stack is cleared.
-/
import Mathlib.Data.List.TakeWhile
import Mathlib.Logic.Function.Basic
import MonkeyTokens.Proofs.Bracket.Verdict

namespace MonkeyTokens

/-- What may be done to a stack of brackets. -/
inductive StackStep where
  | push (t : Token)
  | extend (ts : List Token)
  | clear
  /-- Keeps a copy in a slot. -/
  | save (slot : Nat)
  /-- Goes back to the copy in a slot, which stays there. -/
  | restore (slot : Nat)
  deriving DecidableEq

/-- A stack and the copies of it that are kept. -/
structure StackStore where
  now : BracketStack
  copies : Nat → BracketStack

namespace StackStore

/-- Nothing accounted for, now or in any copy. -/
def fresh : StackStore :=
  ⟨.empty, fun _ => .empty⟩

def step (s : StackStore) : StackStep → StackStore
  | .push t => { s with now := s.now.push t }
  | .extend ts => { s with now := s.now.extend ts }
  | .clear => { s with now := .empty }
  | .save slot => { s with copies := Function.update s.copies slot s.now }
  | .restore slot => { s with now := s.copies slot }

/-- The stack after some steps, of which the last stands first. -/
def after : List StackStep → StackStore
  | [] => fresh
  | last :: before => (after before).step last

end StackStore

/-! ### The history of a stack -/

/-- The steps up to the one that filled a slot last. -/
def upToSave (slot : Nat) (before : List StackStep) : List StackStep :=
  before.dropWhile (· ≠ .save slot)

/-- The tokens accounted for since the stack was last empty, on the way to its present value.
Of the steps so far the last stands first. -/
def history : List StackStep → List Token
  | [] => []
  | .push t :: before => history before ++ [t]
  | .extend ts :: before => history before ++ ts
  | .clear :: _ => []
  | .save _ :: before => history before
  | .restore slot :: before => history (upToSave slot before)
termination_by before => before.length
decreasing_by
  all_goals simp only [List.length_cons]
  all_goals first
    | omega
    | exact Nat.lt_succ_of_le (List.length_dropWhile_le ..)

theorem upToSave_cons_self (slot : Nat) (before : List StackStep) :
    upToSave slot (.save slot :: before) = .save slot :: before :=
  List.dropWhile_cons_of_neg (by simp)

theorem upToSave_cons_of_ne {slot : Nat} {last : StackStep} (h : last ≠ .save slot)
    (before : List StackStep) : upToSave slot (last :: before) = upToSave slot before :=
  List.dropWhile_cons_of_pos (by simpa using h)

namespace StackStore

/-- A slot keeps its copy until another one is put there. -/
theorem copies_step_of_ne {slot : Nat} {last : StackStep} (h : last ≠ .save slot)
    (s : StackStore) : (s.step last).copies slot = s.copies slot := by
  cases last with
  | save kept =>
      have hne : slot ≠ kept := by
        intro heq
        exact h (by rw [heq])
      exact Function.update_of_ne hne ..
  | push | extend | clear | restore => rfl

/-- **A stack is what its history makes it, and so is each of its copies.** -/
theorem after_eq (before : List StackStep) :
    (after before).now = BracketStack.empty.extend (history before)
      ∧ ∀ slot, (after before).copies slot
        = BracketStack.empty.extend (history (upToSave slot before)) := by
  induction before with
  | nil =>
      refine ⟨?_, fun slot => ?_⟩
      · rw [history]
        rfl
      · rw [upToSave, List.dropWhile_nil, history]
        rfl
  | cons last before ih =>
      obtain ⟨hnow, hcopies⟩ := ih
      refine ⟨?_, fun slot => ?_⟩
      · cases last with
        | push t =>
            rw [history, BracketStack.extend_append, ← hnow]
            rfl
        | extend ts =>
            rw [history, BracketStack.extend_append, ← hnow]
            rfl
        | clear =>
            rw [history]
            rfl
        | save slot =>
            rw [history]
            exact hnow
        | restore slot =>
            rw [history]
            exact hcopies slot
      · by_cases hlast : last = .save slot
        · rw [hlast, upToSave_cons_self, history, ← hnow]
          exact Function.update_self ..
        · rw [upToSave_cons_of_ne hlast, ← hcopies slot]
          exact copies_step_of_ne hlast (after before)

end StackStore

/-! ### What tokens can make of a stack -/

namespace BracketStack

/-- A closer is a mismatch only where another one is expected. -/
def FaultIsReal (s : BracketStack) : Prop :=
  ∀ e f, s.fault = some (.mismatched e f) → e ≠ f

theorem FaultIsReal.push {s : BracketStack} (h : s.FaultIsReal) (t : Token) :
    (s.push t).FaultIsReal := by
  obtain ⟨pending, fault⟩ := s
  cases fault with
  | some fault => exact h
  | none =>
      cases hm : t.kind.mark? with
      | none =>
          rw [push_of_mark?_eq_none hm]
          exact h
      | some m =>
          cases m with
          | opening b =>
              rw [push_opening hm]
              exact h
          | closing b =>
              rw [push_closing hm]
              intro e f hfault
              cases pending with
              | nil => cases hfault
              | cons expected rest =>
                  simp only [close] at hfault
                  by_cases he : expected = b
                  · rw [if_pos he] at hfault
                    cases hfault
                  · rw [if_neg he] at hfault
                    cases hfault
                    exact he

theorem FaultIsReal.extend {s : BracketStack} (h : s.FaultIsReal) (ts : List Token) :
    (s.extend ts).FaultIsReal := by
  induction ts generalizing s with
  | nil => exact h
  | cons t ts ih => exact ih (h.push t)

theorem balance_ne_incomplete_zero (s : BracketStack) : s.balance ≠ .incomplete 0 := by
  obtain ⟨pending, fault⟩ := s
  cases fault with
  | some fault => simp [balance]
  | none => cases pending <;> simp [balance]

theorem fault_of_balance_broken {s : BracketStack} {fault : BracketFault}
    (h : s.balance = .broken fault) : s.fault = some fault := by
  obtain ⟨pending, reported⟩ := s
  cases reported with
  | some reported =>
      cases h
      rfl
  | none => cases pending <;> cases h

end BracketStack

/-! ### Runs -/

/-- Does the step put another value in place of the present one, without looking at it? -/
def StackStep.replaces : StackStep → Bool
  | .clear | .restore _ => true
  | .push _ | .extend _ | .save _ => false

namespace StackStore

/-- A stack with a fault stays as it is until it is replaced. -/
theorem now_after_append {before more : List StackStep} {fault : BracketFault}
    (h : (after before).now.fault = some fault) (hmore : ∀ step ∈ more, step.replaces = false) :
    (after (more ++ before)).now = (after before).now := by
  induction more with
  | nil => rfl
  | cons last more ih =>
      obtain ⟨hlast, hmore⟩ := List.forall_mem_cons.1 hmore
      have hnow := ih hmore
      have hfault : (after (more ++ before)).now.fault = some fault := by rw [hnow, h]
      cases last with
      | push t => exact (BracketStack.extend_of_fault hfault [t]).trans hnow
      | extend ts => exact (BracketStack.extend_of_fault hfault ts).trans hnow
      | save slot => exact hnow
      | clear => cases hlast
      | restore slot => cases hlast

end StackStore

/-- The kind of the token that closes a bracket. -/
def Bracket.closer (b : Bracket) : Kind :=
  .punct (.closing b)

/-- **Whatever is done to a stack of brackets, it stands where the tokens of its history
stand.**  What it waits for are closers, its fault is a closer where another or none is
expected, and once it has a fault nothing but clearing it or going back changes it. -/
theorem StackStore.stands_by_history (before : List StackStep) :
    (after before).now.balance = .ofTokens (history before)
      ∧ (∀ k ∈ (after before).now.pending.map Bracket.closer,
          k = .punct (.closing .paren) ∨ k = .punct (.closing .brace))
      ∧ (∀ fault, (after before).now.fault = some fault →
          (∃ e f, fault = .mismatched e f ∧ e.closer ≠ f.closer) ∨ ∃ f, fault = .unopened f)
      ∧ (after before).now.balance ≠ .incomplete 0
      ∧ ∀ fault, (after before).now.balance = .broken fault →
          ∀ more : List StackStep, (∀ step ∈ more, step.replaces = false) →
            (after (more ++ before)).now = (after before).now := by
  have hnow := (after_eq before).1
  refine ⟨?_, ?_, ?_, BracketStack.balance_ne_incomplete_zero _, ?_⟩
  · rw [hnow]
    rfl
  · intro k hk
    obtain ⟨b, -, rfl⟩ := List.mem_map.1 hk
    cases b
    · exact .inl rfl
    · exact .inr rfl
  · intro fault hfault
    have hreal : (after before).now.FaultIsReal := by
      rw [hnow]
      exact BracketStack.FaultIsReal.extend (fun e f h => by cases h) _
    cases fault with
    | mismatched e f =>
        refine .inl ⟨e, f, rfl, fun heq => hreal e f hfault ?_⟩
        cases heq
        rfl
    | unopened f => exact .inr ⟨f, rfl⟩
  · intro fault hbroken more hmore
    exact now_after_append (BracketStack.fault_of_balance_broken hbroken) hmore

end MonkeyTokens
