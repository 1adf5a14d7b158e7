/-
Classes of bytes and of characters.

The classes of `ByteClass` are disjoint, so a byte satisfies the test of its class and no
other.  A character has the class of its first byte: only ASCII bytes have a class of
their own, and they are whole characters.

Letters join with letters and digits with digits.  A token goes on as long as the next
character joins with its first.
-/
import Mathlib.Data.List.DropRight
import Mathlib.Data.List.TakeWhile
import MonkeyTokens.ByteClass
import MonkeyTokens.Proofs.Text.Encoding

namespace MonkeyTokens

open Utf8 (lead)

/-! ### Bytes -/

/-- A byte stands for a mark where it spells it. -/
theorem Punct.ofByte?_eq_some_iff {b : UInt8} {p : Punct} :
    Punct.ofByte? b = some p ↔ p.spelling = String.singleton (Char.ofUInt8 b) := by
  constructor
  · intro h
    unfold Punct.ofByte? at h
    split at h
    all_goals simp only [Option.some.injEq, reduceCtorEq] at h
    all_goals
      rename_i hb
      rw [← h, hb]
      rfl
  · intro h
    have hc := congrArg String.toList h
    unfold Punct.ofByte?
    rcases p with _ | _ | _ | _ | (_ | _) | (_ | _)
    all_goals
      simp only [Punct.spelling, String.toList_singleton, String.reduceToList, List.cons.injEq,
        and_true] at hc
      rw [← hc]
      rfl

/-- A text spells a reserved word where it is the spelling of it. -/
theorem Keyword.ofText?_eq_some_iff {text : String} {k : Keyword} :
    Keyword.ofText? text = some k ↔ text = k.spelling := by
  constructor
  · intro h
    unfold Keyword.ofText? at h
    split at h
    all_goals simp only [Option.some.injEq, reduceCtorEq] at h
    all_goals
      rw [← h]
      rfl
  · intro heq
    subst heq
    cases k <;> rfl

/-- A text is found among the reserved words of its length where it is the spelling of one. -/
theorem Keyword.amongLength?_eq_some_iff {text : String} {k : Keyword} :
    Keyword.amongLength? text = some k ↔ text = k.spelling := by
  constructor
  · intro h
    unfold Keyword.amongLength? at h
    split at h
    -- No word is of another length.
    case h_6 => cases h
    all_goals split at h
    all_goals simp only [Option.some.injEq, reduceCtorEq] at h
    all_goals
      rw [← h]
      rfl
  · intro heq
    subst heq
    cases k <;> rfl

/-- A word is a reserved word where it is spelled as one, and else a plain name. -/
theorem Kind.ofWord_eq (text : String) :
    (∃ k : Keyword, text = k.spelling ∧ Kind.ofWord text = .keyword k)
      ∨ (∀ k : Keyword, text ≠ k.spelling) ∧ Kind.ofWord text = .ident := by
  unfold Kind.ofWord
  cases hword : Keyword.amongLength? text with
  | some k =>
      left
      exact ⟨k, Keyword.amongLength?_eq_some_iff.1 hword, rfl⟩
  | none =>
      right
      refine ⟨?_, rfl⟩
      intro k hk
      rw [Keyword.amongLength?_eq_some_iff.2 hk] at hword
      cases hword

/-- The bytes that are blanks. -/
theorem isBlank_iff {b : UInt8} : isBlank b = true ↔ Char.ofUInt8 b ∈ [' ', '\t', '\n', '\r'] := by
  unfold isBlank
  split <;> simp_all

namespace ByteClass

/-- Only ASCII bytes have a class of their own. -/
theorem lt_of_ofByte_ne_other : ∀ b : UInt8, ofByte b ≠ .other → b < 0x80 := by
  apply Utf8.byte_cases
  decide +kernel

theorem isBlank_eq : ∀ b : UInt8, isBlank b = decide (ofByte b = .blank) := by
  apply Utf8.byte_cases
  decide +kernel

theorem isLetter_eq : ∀ b : UInt8, isLetter b = decide (ofByte b = .letter) := by
  apply Utf8.byte_cases
  decide +kernel

theorem isDigit_eq : ∀ b : UInt8, isDigit b = decide (ofByte b = .digit) := by
  apply Utf8.byte_cases
  decide +kernel

/-- The test for a class of its own is passed by ASCII bytes only. -/
theorem lt_of_test {p : UInt8 → Bool} {k : ByteClass} (hk : k ≠ .other)
    (hp : ∀ b, p b = decide (ofByte b = k)) (b : UInt8) (hb : p b = true) : b < 0x80 := by
  rw [hp, decide_eq_true_eq] at hb
  exact lt_of_ofByte_ne_other b (by rwa [hb])

theorem ofByte_eq_punct_iff {b : UInt8} {p : Punct} :
    ofByte b = .punct p ↔ Punct.ofByte? b = some p := by
  cases h : Punct.ofByte? b with
  | some q => simp [ofByte, h]
  | none =>
      simp only [ofByte, h, reduceCtorEq, iff_false]
      repeat' split
      all_goals simp

/-- What no other class takes. -/
theorem ofByte_eq_other_iff {b : UInt8} : ofByte b = .other ↔
    Punct.ofByte? b = none ∧ isLetter b = false ∧ isDigit b = false ∧ isBlank b = false := by
  cases h : Punct.ofByte? b <;> cases hl : isLetter b <;> cases hd : isDigit b <;>
    cases hb : isBlank b <;> simp [ofByte, *]

/-! ### Characters -/

/-- The class of a character is that of its first byte. -/
def ofChar (c : Char) : ByteClass :=
  ofByte (lead c)

theorem lead_lt_of_ofChar {c : Char} (h : ofChar c ≠ .other) : lead c < 0x80 :=
  lt_of_ofByte_ne_other (lead c) h

/-- A mark is one character of its own class. -/
theorem toList_spelling (p : Punct) : ∃ c, p.spelling.toList = [c] ∧ ofChar c = .punct p := by
  cases p with
  | opening b => cases b <;> exact ⟨_, rfl, by decide⟩
  | closing b => cases b <;> exact ⟨_, rfl, by decide⟩
  | _ => exact ⟨_, rfl, by decide⟩

/-- A character is the punctuation mark that it spells. -/
theorem spelling_of_ofChar {c : Char} {p : Punct} (h : ofChar c = .punct p) :
    p.spelling = String.singleton c := by
  have hspell := Punct.ofByte?_eq_some_iff.1 (ofByte_eq_punct_iff.1 h)
  rwa [Utf8.ofUInt8_lead (lead_lt_of_ofChar (by simp [h]))] at hspell

/-- Do two characters of these classes, one after the other, belong to one token? -/
def joins : ByteClass → ByteClass → Bool
  | .letter, .letter | .digit, .digit => true
  | _, _ => false

/-- Classes that join are equal. -/
theorem eq_of_joins {k l : ByteClass} (h : k.joins l = true) : k = l := by
  cases k <;> cases l <;> simp [joins] at h ⊢

theorem isLetter_eq_joins (b : UInt8) : isLetter b = joins .letter (ofByte b) := by
  rw [isLetter_eq]
  cases ofByte b <;> rfl

theorem isDigit_eq_joins (b : UInt8) : isDigit b = joins .digit (ofByte b) := by
  rw [isDigit_eq]
  cases ofByte b <;> rfl

/-- The characters that join a token of this class and stand next. -/
def run (k : ByteClass) (cs : List Char) : List Char :=
  cs.takeWhile fun c => k.joins (ofChar c)

/-- The characters from the first that does not join a token of this class. -/
def pastRun (k : ByteClass) (cs : List Char) : List Char :=
  cs.dropWhile fun c => k.joins (ofChar c)

theorem run_append_pastRun (k : ByteClass) (cs : List Char) : k.run cs ++ k.pastRun cs = cs :=
  List.takeWhile_append_dropWhile

/-- What joins nothing is a token alone. -/
theorem run_alone {k : ByteClass} (hk : ∀ l, k.joins l = false) (cs : List Char) :
    k.run cs = [] ∧ k.pastRun cs = cs := by
  cases cs <;> simp [run, pastRun, hk]

theorem joins_of_mem_run {k : ByteClass} {cs : List Char} {c : Char} (h : c ∈ k.run cs) :
    k.joins (ofChar c) = true := by
  have hall := List.all_takeWhile (l := cs) (p := fun c => k.joins (ofChar c))
  exact List.all_eq_true.1 hall c h

theorem ofChar_of_mem_run {k : ByteClass} {cs : List Char} {c : Char} (h : c ∈ k.run cs) :
    ofChar c = k :=
  (eq_of_joins (joins_of_mem_run h)).symm

/-- All characters of a token have the class of its first. -/
theorem ofChar_of_mem_lexeme {c d : Char} {cs : List Char} (h : d ∈ c :: (ofChar c).run cs) :
    ofChar d = ofChar c := by
  rcases List.mem_cons.1 h with rfl | hrun
  · rfl
  · exact ofChar_of_mem_run hrun

theorem joins_of_mem_head? {k : ByteClass} {cs : List Char} {c : Char}
    (h : c ∈ (k.pastRun cs).head?) : k.joins (ofChar c) = false := by
  have hnot := List.head?_dropWhile_not (fun c => k.joins (ofChar c)) cs
  rw [show (cs.dropWhile fun c => k.joins (ofChar c)).head? = some c from h] at hnot
  exact hnot

/-- What stands before the rest of a run is the run. -/
theorem run_eq_of_pastRun {k : ByteClass} {us vs : List Char} (h : k.pastRun (us ++ vs) = vs) :
    k.run (us ++ vs) = us := by
  have hsplit := k.run_append_pastRun (us ++ vs)
  rw [h] at hsplit
  exact List.append_cancel_right hsplit

/-- What is left of a run is a run. -/
theorem run_of_suffix {k : ByteClass} {cs us vs : List Char} (h : k.run cs = us ++ vs) :
    k.run (vs ++ k.pastRun cs) = vs ∧ k.pastRun (vs ++ k.pastRun cs) = k.pastRun cs := by
  have hall : ∀ c ∈ vs, k.joins (ofChar c) = true := by
    intro c hc
    have hmem : c ∈ k.run cs := by
      rw [h]
      exact List.mem_append_right us hc
    exact joins_of_mem_run hmem
  have hpast : k.pastRun (vs ++ k.pastRun cs) = k.pastRun cs :=
    (List.dropWhile_append_of_pos hall).trans (List.dropWhile_idempotent ..)
  exact ⟨run_eq_of_pastRun hpast, hpast⟩

/-- A run that does not reach the end of a text ends where it did, whatever comes after. -/
theorem run_append_of_pastRun_ne_nil {k : ByteClass} {cs : List Char} (h : k.pastRun cs ≠ [])
    (vs : List Char) : k.run (cs ++ vs) = k.run cs ∧ k.pastRun (cs ++ vs) = k.pastRun cs ++ vs := by
  have hpast : k.pastRun (cs ++ vs) = k.pastRun cs ++ vs := by
    unfold pastRun at h ⊢
    rw [List.dropWhile_append, if_neg (by simpa using h)]
  have hsplit : cs ++ vs = k.run cs ++ (k.pastRun cs ++ vs) := by
    rw [← List.append_assoc, run_append_pastRun]
  refine ⟨?_, hpast⟩
  rw [hsplit]
  exact run_eq_of_pastRun (by rw [← hsplit, hpast])

/-- A run that reaches the end of a text goes on with what comes after. -/
theorem run_append_of_pastRun_eq_nil {k : ByteClass} {cs : List Char} (h : k.pastRun cs = [])
    (vs : List Char) :
    k.run (cs ++ vs) = k.run cs ++ k.run vs ∧ k.pastRun (cs ++ vs) = k.pastRun vs := by
  have hall : ∀ c ∈ cs, k.joins (ofChar c) = true := List.dropWhile_eq_nil_iff.1 h
  have hrun : k.run cs = cs := List.takeWhile_eq_self_iff.2 hall
  rw [hrun]
  exact ⟨List.takeWhile_append_of_pos hall, List.dropWhile_append_of_pos hall⟩

end ByteClass

/-- Is the character a blank? -/
def isBlankChar (c : Char) : Bool :=
  isBlank (lead c)

theorem isBlankChar_iff {c : Char} : isBlankChar c = true ↔ ByteClass.ofChar c = .blank := by
  rw [isBlankChar, ByteClass.isBlank_eq, decide_eq_true_eq]
  rfl

end MonkeyTokens
