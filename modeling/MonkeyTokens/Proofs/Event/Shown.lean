/-
Which events are shown, and how.

An event is shown as one line, whatever texts it carries: these are quoted, and nothing else
in a log line comes from outside (`Event.newline_notMem_render`).

A choice of events is read from a text that is cut at commas and at signs.  The library cuts
by byte offsets; what comes out is the list of characters, cut (`splitOn_singleton`).  So the
choice of the finest detail is read as a directive for every target, and shows every event.
-/
import Mathlib.Data.String.Basic
import MonkeyTokens.Event.Filter
import MonkeyTokens.Proofs.Rendered

namespace MonkeyTokens

/-! ### One line -/

theorem newline_notMem_toString (n : Nat) : '\n' ∉ (toString n).toList := by
  rw [Nat.toString_eq_ofList_toDigits, String.toList_ofList]
  intro hmem
  exact absurd (Nat.isDigit_of_mem_toDigits (by decide) (by decide) hmem) (by decide)

theorem Balance.newline_notMem_label (b : Balance) : '\n' ∉ b.label.toList := by
  have hcloser : ∀ bracket, '\n' ∉ (closerLabel bracket).toList := by
    intro bracket
    cases bracket <;> decide
  unfold label
  rcases b with _ | n | ⟨expected, found⟩ | found
  · decide
  · simp only [String.toList_append, List.mem_append, not_or]
    exact ⟨⟨by decide, newline_notMem_toString n⟩, by decide⟩
  · simp only [String.toList_append, List.mem_append, not_or]
    exact ⟨⟨⟨⟨by decide, hcloser expected⟩, by decide⟩, hcloser found⟩, by decide⟩
  · simp only [String.toList_append, List.mem_append, not_or]
    exact ⟨⟨by decide, hcloser found⟩, by decide⟩

namespace Event

theorem Value.newline_notMem_render (v : Value) : '\n' ∉ v.render.toList := by
  cases v with
  | number n => exact newline_notMem_toString n
  | text s => exact Quoted.newline_notMem_encode s
  | kind k =>
      intro hmem
      exact absurd (Kind.isUpper_of_mem_name _ hmem) (by decide)
  | balance b => exact b.newline_notMem_label

theorem newline_notMem_fields (e : Event) : ∀ f ∈ e.fields, '\n' ∉ f.1.toList := by
  cases e <;> simp [fields]

/-- **What is shown of an event is one line**, whatever texts the event carries. -/
theorem newline_notMem_render (e : Event) : '\n' ∉ e.render.toList := by
  have hlevel : '\n' ∉ e.level.name.toList := by
    cases e.level <;> decide
  have htarget : '\n' ∉ e.target.toList := by
    cases e <;> simp [target]
  have hmessage : '\n' ∉ e.message.toList := by
    cases e <;> simp [message]
  have hfields : '\n'
      ∉ (String.join (e.fields.map fun f => " " ++ f.1 ++ "=" ++ f.2.render)).toList := by
    rw [String.toList_join, List.flatMap_map, List.mem_flatMap]
    intro hmem
    obtain ⟨f, hf, hmem⟩ := hmem
    simp only [String.toList_append, List.mem_append] at hmem
    rcases hmem with ((h | h) | h) | h
    · exact absurd h (by decide)
    · exact e.newline_notMem_fields f hf h
    · exact absurd h (by decide)
    · exact f.2.newline_notMem_render h
  unfold render
  simp only [String.toList_append, List.mem_append, not_or]
  exact ⟨⟨⟨⟨⟨hlevel, by decide⟩, htarget⟩, by decide⟩, hmessage⟩, hfields⟩

end Event

/-! ### Cutting a text -/

section Splitting

open String

/-- What is left of a text where the part `m` has been passed since the last mark. -/
theorem splitOnAux_singleton (mark : Char) (l m r : List Char) (acc : List String) :
    splitOnAux (ofList (l ++ m ++ r)) (ofList [mark]) ⟨utf8Len l⟩ ⟨utf8Len (l ++ m)⟩ 0 acc
      = acc.reverse ++ (List.splitOnPPrepend (· == mark) r m.reverse).map ofList := by
  have hpart : ∀ l m r, Pos.Raw.extract (ofList (l ++ m ++ r)) ⟨utf8Len l⟩ ⟨utf8Len (l ++ m)⟩
      = ofList m := by
    intro l m r
    rw [utf8Len_append]
    exact extract_of_valid l m r
  induction r generalizing l m acc with
  | nil =>
      have hend : Pos.Raw.atEnd (ofList (l ++ m ++ [])) ⟨utf8Len (l ++ m)⟩ = true := by
        rw [atEnd_of_valid]
      rw [splitOnAux, if_pos hend, hpart]
      simp
  | cons c r ih =>
      have hend : ¬ Pos.Raw.atEnd (ofList (l ++ m ++ c :: r)) ⟨utf8Len (l ++ m)⟩ = true := by
        rw [atEnd_of_valid]
        simp
      have hmark : Pos.Raw.get (ofList [mark]) 0 = mark := get_of_valid [] [mark]
      have hpast : Pos.Raw.next (ofList [mark]) 0 = ⟨mark.utf8Size⟩ := by
        simpa using next_of_valid [] mark []
      have hdone : Pos.Raw.atEnd (ofList [mark]) ⟨mark.utf8Size⟩ = true := by
        simpa using atEnd_of_valid [mark] []
      have hlen : utf8Len (l ++ m ++ [c]) = utf8Len (l ++ m) + c.utf8Size := by
        simp [Nat.add_assoc]
      rw [splitOnAux, if_neg hend, get_of_valid, hmark, List.headD_cons]
      by_cases hc : (c == mark) = true
      · -- The mark ends the part, and the next begins after it.
        have hback : Pos.Raw.unoffsetBy ⟨utf8Len (l ++ m) + c.utf8Size⟩ ⟨mark.utf8Size⟩
            = ⟨utf8Len (l ++ m)⟩ := by
          rw [eq_of_beq hc]
          simp [Pos.Raw.unoffsetBy]
        have hrest := ih (l ++ m ++ [c]) [] (ofList m :: acc)
        rw [List.append_nil, hlen, List.append_assoc, List.singleton_append] at hrest
        rw [if_pos hc, List.splitOnPPrepend_cons_eq_if, if_pos hc]
        simp only [next_of_valid, hpast, if_pos hdone, hback, hpart, hrest]
        simp
      · have hback : Pos.Raw.unoffsetBy ⟨utf8Len (l ++ m)⟩ 0 = ⟨utf8Len (l ++ m)⟩ := rfl
        have hrest := ih l (m ++ [c]) acc
        rw [← List.append_assoc, hlen, List.append_assoc (l ++ m), List.singleton_append] at hrest
        rw [if_neg hc, hback, next_of_valid, List.splitOnPPrepend_cons_eq_if, if_neg hc, hrest]
        simp

/-- A text is cut at a character as the list of its characters is. -/
theorem splitOn_singleton (text : String) (mark : Char) :
    text.splitOn (.singleton mark) = (text.toList.splitOn mark).map ofList := by
  have hmark : ¬ (String.singleton mark == "") = true := by
    simp
  have hsplit := splitOnAux_singleton mark [] [] text.toList []
  rw [splitOn, if_neg hmark]
  simpa [List.splitOn_eq_splitOnP] using hsplit

end Splitting

/-! ### Choices -/

namespace LogFilter

/-- The choice of the finest detail is one directive, for every target. -/
theorem ofText_trace : ofText "trace" = ⟨[⟨"", .trace⟩]⟩ := by
  have hparts : "trace".splitOn "," = ["trace"] := splitOn_singleton "trace" ','
  have hwords : "trace".splitOn "=" = ["trace"] := splitOn_singleton "trace" '='
  have hname : Verbosity.ofName? "trace" = some .trace := by
    decide +kernel
  rw [ofText, hparts]
  simp [Directive.ofText?, hwords, hname]

/-- **The choice of the finest detail shows every event.** -/
theorem selects_trace (e : Event) : (ofText "trace").selects e = true := by
  rw [ofText_trace]
  rfl

end LogFilter

end MonkeyTokens
