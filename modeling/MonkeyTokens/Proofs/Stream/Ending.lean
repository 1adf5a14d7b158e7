/-
When a stream comes to its end.

Every token takes at least one character that is no blank, so there are no more tokens ahead
than such characters, and the request after the last of them meets the end.  The bound is
exact: each character that joins the one before it saves a token, and nothing else does
(`length_lex_add_joints`).

Having met the end, a stream stands there for good.
-/
import MonkeyTokens.Proofs.Layout
import MonkeyTokens.Proofs.Stream.Requests

namespace MonkeyTokens

open Utf8 (size)
open ByteClass (ofChar)

/-! ### How many tokens a text has -/

/-- How many characters join the one before them. -/
def joints : List Char → Nat
  | [] | [_] => 0
  | c :: d :: cs => (if (ofChar c).joins (ofChar d) then 1 else 0) + joints (d :: cs)

/-- Of two characters that join, the first adds no token to those that begin with the second. -/
theorem length_lex_cons_joined {c d : Char} (h : (ofChar c).joins (ofChar d) = true)
    (cs : List Char) : (lex (c :: d :: cs)).length = (lex (d :: cs)).length := by
  obtain ⟨hc, hd⟩ := isBlankChar_of_joins h
  have hpast : (ofChar c).pastRun (d :: cs) = (ofChar d).pastRun cs := by
    rw [← ByteClass.eq_of_joins h]
    exact List.dropWhile_cons_of_pos h
  rw [lex, if_neg (by simp [hc]), lex, if_neg (by simp [hd]), hpast, List.length_cons,
    List.length_cons]

/-- A character alone is a token, unless it is a blank. -/
theorem length_lex_singleton (c : Char) :
    (lex [c]).length = if isBlankChar c then 0 else 1 := by
  by_cases hc : isBlankChar c = true
  · simp [lex, hc]
  · simp [lex, hc, ByteClass.pastRun]

/-- **A text has a token for each character that is no blank and does not join the one before
it.** -/
theorem length_lex_add_joints (cs : List Char) :
    (lex cs).length + joints cs = cs.countP fun c => !isBlankChar c := by
  fun_induction joints cs with
  | case1 => simp
  | case2 c =>
      rw [length_lex_singleton]
      by_cases hc : isBlankChar c = true
      · simp [hc]
      · simp [hc]
  | case3 c d cs ih =>
      by_cases hjoin : (ofChar c).joins (ofChar d) = true
      · have hc := (isBlankChar_of_joins hjoin).1
        rw [length_lex_cons_joined hjoin, if_pos hjoin,
          List.countP_cons_of_pos (by simp [hc]), ← ih]
        omega
      · have hapart : Apart [c] (d :: cs) := by
          intro a ha b hb
          cases ha
          cases hb
          simpa using hjoin
        have happend : lex (c :: d :: cs) = lex [c] ++ lex (d :: cs) := lex_append hapart
        rw [happend, List.length_append, length_lex_singleton, if_neg hjoin, List.countP_cons, ← ih]
        by_cases hc : isBlankChar c = true
        · simp [hc]
        · simp [hc]
          omega

/-- Are no two characters next to each other both letters or both digits? -/
def Scattered (text : String) : Prop :=
  text.toList.IsChain fun c d =>
    ¬ (isLetterChar c ∧ isLetterChar d) ∧ ¬ (c.isDigit ∧ d.isDigit)

theorem scattered_iff {cs : List Char} : Scattered (.ofList cs) ↔ joints cs = 0 := by
  rw [Scattered, String.toList_ofList]
  fun_induction joints cs with
  | case1 => simp
  | case2 c => simp
  | case3 c d cs ih =>
      rw [List.isChain_cons_cons, ih, ← not_or, ← joins_ofChar_iff]
      by_cases hjoin : (ofChar c).joins (ofChar d) = true
      · simp [hjoin]
      · simp [hjoin]

/-- How many characters of a text are not blank. -/
def solidCount (text : String) : Nat :=
  text.toList.countP fun c => c ∉ [' ', '\t', '\n', '\r']

theorem solidCount_ofList (cs : List Char) :
    solidCount (.ofList cs) = cs.countP fun c => !isBlankChar c := by
  rw [solidCount, String.toList_ofList]
  congr 1
  funext c
  rw [decide_not, Bool.not_inj_iff, Bool.eq_iff_iff, decide_eq_true_eq, isBlankChar_iff_mem]

/-- A text has at most one token for each character that is no blank, and as many only where no
character joins the one before it. -/
theorem length_lex_le_solidCount (cs : List Char) :
    (lex cs).length ≤ solidCount (.ofList cs)
      ∧ ((lex cs).length = solidCount (.ofList cs) ↔ Scattered (.ofList cs)) := by
  rw [solidCount_ofList, scattered_iff, ← length_lex_add_joints]
  omega

/-! ### What a request finds -/

namespace TokenStream

/-- The request after as many requests as there are tokens before a token finds this token. -/
theorem ask_of_getElem? {source : String} {rs : List Request} {t : Token}
    (h : (tokens source)[rs.length]? = some t) (r : Request) :
    (((ofText source).askAll rs).ask r).1 = some t
      ∧ ((ofText source).askAll rs).position
        < (((ofText source).askAll rs).ask r).2.position := by
  obtain ⟨us, vs, -, hall, hrest⟩ := exists_askAll_ofText source rs
  rw [← List.head?_drop, ← hrest] at h
  rw [hall]
  rcases ask_seam us vs r with ⟨hlex, -⟩ | ⟨u, passed, vs', -, hne, hlex, hask⟩
  · rw [hlex] at h
    cases h
  · rw [hlex] at h
    cases h
    obtain ⟨c, cs, rfl⟩ := List.exists_cons_of_ne_nil hne
    have hpos := c.utf8Size_pos
    rw [hask]
    refine ⟨rfl, ?_⟩
    simp only [position_seam, Utf8.size_append, Utf8.size_cons]
    omega

/-- After as many requests as there are tokens a request meets the end. -/
theorem ask_of_length_le {source : String} {rs : List Request}
    (h : (tokens source).length ≤ rs.length) (r : Request) :
    (((ofText source).askAll rs).ask r).1 = r.atEnd
      ∧ (((ofText source).askAll rs).ask r).2.position = source.utf8ByteSize := by
  obtain ⟨us, vs, rfl, hall, hrest⟩ := exists_askAll_ofText source rs
  rw [List.drop_of_length_le h] at hrest
  rw [hall]
  rcases ask_seam us vs r with ⟨-, hask⟩ | ⟨u, passed, vs', -, -, hlex, -⟩
  · rw [hask]
    exact ⟨rfl, (Utf8.utf8ByteSize_ofList _).symm⟩
  · rw [hrest] at hlex
    cases hlex

/-- Having met the end, a stream stands there. -/
theorem position_askAll_of_length_lt {source : String} {rs : List Request}
    (h : (tokens source).length < rs.length) :
    ((ofText source).askAll rs).position = source.utf8ByteSize := by
  rcases List.eq_nil_or_concat rs with rfl | ⟨rs, r, rfl⟩
  · cases h
  · rw [List.concat_eq_append, askAll_append]
    refine (ask_of_length_le ?_ r).2
    rw [List.concat_eq_append, List.length_append, List.length_singleton] at h
    omega

/-- **A stream ends in time, and for good, however it is asked.**  With some characters ahead
that are no blanks, each further request hands out the next token and moves the stream on, or
meets the end; the first to meet the end comes no later than after one request for each of
these characters, and as late as this only where no two letters and no two digits stand
together.  From then on the stream stands at the end of its text. -/
theorem ends_in_time (source : String) (past : List Request) :
    ∃ behind ahead : String, source = behind ++ ahead
      ∧ ((ofText source).askAll past).position = behind.utf8ByteSize
      ∧ ∃ left, left ≤ solidCount ahead ∧ (left = solidCount ahead ↔ Scattered ahead)
        ∧ ∀ (more : List Request) (r : Request),
          let s := (ofText source).askAll (past ++ more)
          (more.length < left → ∃ t, (tokenize source)[past.length + more.length]? = some t
            ∧ t.isEof = false ∧ (s.ask r).1 = some t ∧ s.position < (s.ask r).2.position)
          ∧ (left ≤ more.length →
            (s.ask r).1 = r.atEnd ∧ (s.ask r).2.position = source.utf8ByteSize)
          ∧ (left < more.length → s.position = source.utf8ByteSize) := by
  obtain ⟨us, vs, hsource, hall, hrest⟩ := exists_askAll_ofText source past
  have hleft : (lex vs).length = (tokens source).length - past.length := by
    rw [hrest, List.length_drop]
  obtain ⟨hle, heq⟩ := length_lex_le_solidCount vs
  refine ⟨.ofList us, .ofList vs, by rw [hsource, String.ofList_append], ?_,
    (lex vs).length, hle, heq, ?_⟩
  · rw [hall, Utf8.utf8ByteSize_ofList]
    rfl
  · intro more r s
    have hlength : (past ++ more).length = past.length + more.length := List.length_append
    refine ⟨?_, ?_, ?_⟩
    · intro hmore
      have hlt : (past ++ more).length < (tokens source).length := by omega
      obtain ⟨t, hget⟩ : ∃ t, (tokens source)[(past ++ more).length]? = some t :=
        ⟨_, List.getElem?_eq_getElem hlt⟩
      have hmem : t ∈ lex source.toList := by
        rw [← tokens_eq]
        exact List.mem_of_getElem? hget
      obtain ⟨hanswer, hmoves⟩ := ask_of_getElem? hget r
      refine ⟨t, ?_, isEof_of_mem_lex t hmem, hanswer, hmoves⟩
      rw [← hlength, tokenize_eq, ← tokens_eq, List.getElem?_append_left hlt, hget]
    · intro hmore
      exact ask_of_length_le (by omega) r
    · intro hmore
      exact position_askAll_of_length_lt (by omega)

end TokenStream

end MonkeyTokens
