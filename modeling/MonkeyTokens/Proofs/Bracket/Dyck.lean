/-
Well nested brackets.

`Dyck` is the language of the words in which every opener has its closer, with two kinds
of brackets.  `walk` reads a word with a stack of the brackets that are open, and stops at
the first closer that is wrong.  The two say the same: the words of the language are those
that leave nothing open, and their prefixes are those that are read to the end.

Soundness needs more than words that leave nothing open, since what is left of a word
after its first mark is none.  `Closes` says of a stack which words close it, and is what
the induction is about.
-/
import MonkeyTokens.Bracket.Balance

namespace MonkeyTokens

/-- A bracket in a text, one half of a pair. -/
inductive Mark where
  | opening (b : Bracket)
  | closing (b : Bracket)
  deriving DecidableEq

/-- The words in which brackets are well nested. -/
inductive Dyck : List Mark → Prop
  | nil : Dyck []
  | wrap (b : Bracket) {w w' : List Mark} (inside : Dyck w) (after : Dyck w') :
      Dyck (.opening b :: w ++ .closing b :: w')

/-- The words that can be completed. -/
def Viable (d : List Mark) : Prop :=
  ∃ w, Dyck (d ++ w)

/-- Words of closers only. -/
def OnlyClosers (c : List Mark) : Prop :=
  ∀ m ∈ c, ∃ b, m = .closing b

/-- Reads marks with a stack of open brackets, innermost first, up to the first closer that is
wrong. -/
def walk : List Bracket → List Mark → Except BracketFault (List Bracket)
  | open_, [] => .ok open_
  | open_, .opening b :: d => walk (b :: open_) d
  | [], .closing b :: _ => .error (.unopened b)
  | expected :: open_, .closing b :: d =>
    if expected = b then walk open_ d else .error (.mismatched expected b)

section Walk

variable {p q r : List Bracket} {d u v w : List Mark}

/-- Reading goes on with what is open. -/
theorem walk_append (p : List Bracket) (u v : List Mark) :
    walk p (u ++ v) = walk p u >>= fun q => walk q v := by
  induction u generalizing p with
  | nil => rfl
  | cons m u ih =>
      cases m with
      | opening b => exact ih (b :: p)
      | closing b =>
          cases p with
          | nil => rfl
          | cons e p =>
              rw [List.cons_append, walk, walk]
              by_cases he : e = b
              · rw [if_pos he, if_pos he]
                exact ih p
              · rw [if_neg he, if_neg he]
                rfl

theorem walk_append_of_ok (h : walk p u = .ok q) (v : List Mark) : walk p (u ++ v) = walk q v := by
  rw [walk_append, h]
  rfl

/-- What comes after a wrong closer is not read. -/
theorem walk_append_of_error {fault : BracketFault} (h : walk p u = .error fault)
    (v : List Mark) : walk p (u ++ v) = .error fault := by
  rw [walk_append, h]
  rfl

/-- A wrong closer is found at a place where the marks before it were in order. -/
theorem walk_error {fault : BracketFault} (h : walk p d = .error fault) :
    ∃ u f rest q, d = u ++ .closing f :: rest ∧ walk p u = .ok q
      ∧ walk q [.closing f] = .error fault := by
  induction d generalizing p with
  | nil => cases h
  | cons m d ih =>
      cases m with
      | opening b =>
          obtain ⟨u, f, rest, q, rfl, hu, hf⟩ := ih h
          exact ⟨.opening b :: u, f, rest, q, rfl, hu, hf⟩
      | closing b =>
          cases p with
          | nil => exact ⟨[], b, d, [], rfl, rfl, h⟩
          | cons e p =>
              by_cases he : e = b
              · rw [walk, if_pos he] at h
                obtain ⟨u, f, rest, q, rfl, hu, hf⟩ := ih h
                refine ⟨.closing b :: u, f, rest, q, rfl, ?_, hf⟩
                rw [walk, if_pos he]
                exact hu
              · refine ⟨[], b, d, e :: p, rfl, rfl, ?_⟩
                rw [walk, if_neg he] at h ⊢
                exact h

/-! ### Words of the language leave the stack as it was -/

theorem Dyck.walk_eq (h : Dyck w) (p : List Bracket) : walk p w = .ok p := by
  induction h generalizing p with
  | nil => rfl
  | wrap b _ _ ihw ihw' =>
      rw [List.cons_append, walk, walk_append_of_ok (ihw (b :: p)), walk, if_pos rfl]
      exact ihw' p

/-! ### Words that close a stack -/

/-- The words that close these brackets one after another, with well nested words between. -/
def Closes : List Bracket → List Mark → Prop
  | [], d => Dyck d
  | b :: p, d => ∃ w d', d = w ++ .closing b :: d' ∧ Dyck w ∧ Closes p d'

theorem Closes.wrap (b : Bracket) (hw : Dyck w) (hd : Closes p d) :
    Closes p (.opening b :: w ++ .closing b :: d) := by
  cases p with
  | nil => exact .wrap b hw hd
  | cons e p =>
      obtain ⟨w', d, rfl, hw', hd⟩ := hd
      exact ⟨.opening b :: w ++ .closing b :: w', d, by simp, .wrap b hw hw', hd⟩

/-- **A word that leaves nothing open closes what was open.** -/
theorem closes_of_walk (h : walk p d = .ok []) : Closes p d := by
  induction d generalizing p with
  | nil =>
      rw [walk, Except.ok.injEq] at h
      subst h
      exact .nil
  | cons m d ih =>
      cases m with
      | opening b =>
          obtain ⟨w, d, rfl, hw, hd⟩ := ih h
          exact hd.wrap b hw
      | closing b =>
          cases p with
          | nil => cases h
          | cons e p =>
              by_cases he : e = b
              · rw [walk, if_pos he] at h
                exact ⟨[], d, by rw [he]; rfl, .nil, ih h⟩
              · rw [walk, if_neg he] at h
                cases h

/-- **The words of the language are those that leave nothing open.** -/
theorem dyck_iff_walk : Dyck d ↔ walk [] d = .ok [] :=
  ⟨fun h => h.walk_eq [], closes_of_walk⟩

/-! ### Completions -/

theorem onlyClosers_map (p : List Bracket) : OnlyClosers (p.map .closing) := by
  intro m hm
  obtain ⟨b, -, rfl⟩ := List.mem_map.1 hm
  exact ⟨b, rfl⟩

theorem walk_closers (p : List Bracket) : walk p (p.map .closing) = .ok [] := by
  induction p with
  | nil => rfl
  | cons b p ih => rw [List.map_cons, walk, if_pos rfl, ih]

/-- Closers alone can close a stack in one way. -/
theorem eq_closers_of_walk (hc : OnlyClosers w) (h : walk p w = .ok []) :
    w = p.map .closing := by
  induction w generalizing p with
  | nil =>
      rw [walk, Except.ok.injEq] at h
      rw [h]
      rfl
  | cons m w ih =>
      rw [OnlyClosers, List.forall_mem_cons] at hc
      obtain ⟨⟨b, rfl⟩, hw⟩ := hc
      cases p with
      | nil => cases h
      | cons e p =>
          by_cases he : e = b
          · rw [walk, if_pos he] at h
            rw [ih hw h, he, List.map_cons]
          · rw [walk, if_neg he] at h
            cases h

/-- A mark closes one bracket at most. -/
theorem length_le_of_walk (h : walk p w = .ok q) : p.length ≤ q.length + w.length := by
  induction w generalizing p with
  | nil =>
      rw [walk, Except.ok.injEq] at h
      simp [h]
  | cons m w ih =>
      cases m with
      | opening b =>
          have hle := ih (p := b :: p) h
          simp only [List.length_cons] at hle ⊢
          omega
      | closing b =>
          cases p with
          | nil => simp
          | cons e p =>
              by_cases he : e = b
              · rw [walk, if_pos he] at h
                have hle := ih h
                simp only [List.length_cons]
                omega
              · rw [walk, if_neg he] at h
                cases h

/-- What completes a word is what closes the brackets that it leaves open. -/
theorem dyck_append_iff (h : walk [] d = .ok q) : Dyck (d ++ w) ↔ walk q w = .ok [] := by
  rw [dyck_iff_walk, walk_append_of_ok h]

/-- **The words that can be completed are those that are read to the end.** -/
theorem viable_iff_walk : Viable d ↔ ∃ q, walk [] d = .ok q := by
  constructor
  · intro hex
    obtain ⟨w, hw⟩ := hex
    rw [dyck_iff_walk] at hw
    cases hd : walk [] d with
    | ok q => exact ⟨q, rfl⟩
    | error fault =>
        rw [walk_append_of_error hd] at hw
        cases hw
  · intro hex
    obtain ⟨q, hq⟩ := hex
    exact ⟨q.map .closing, (dyck_append_iff hq).2 (walk_closers q)⟩

/-- What begins a word that can be completed can be completed. -/
theorem Viable.of_append (h : Viable (u ++ v)) : Viable u := by
  obtain ⟨w, hw⟩ := h
  exact ⟨v ++ w, by rwa [← List.append_assoc]⟩

/-- With `e` innermost, the closer of `e` alone can come next. -/
theorem viable_append_closing_iff (h : walk [] u = .ok q) (e : Bracket) :
    Viable (u ++ [.closing e]) ↔ ∃ q', q = e :: q' := by
  rw [viable_iff_walk, walk_append_of_ok h]
  cases q with
  | nil => simp [walk]
  | cons e' q =>
      by_cases he : e' = e
      · simp [walk, he]
      · simp [walk, he]

/-- An opener can always come next. -/
theorem viable_append_opening (h : Viable u) (b : Bracket) : Viable (u ++ [.opening b]) := by
  obtain ⟨q, hq⟩ := viable_iff_walk.1 h
  rw [viable_iff_walk, walk_append_of_ok hq]
  exact ⟨b :: q, rfl⟩

end Walk

end MonkeyTokens
