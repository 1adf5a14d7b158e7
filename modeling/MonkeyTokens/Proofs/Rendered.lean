/-
The printed form of a token.

It is one line and begins with a capital letter, which tells it from prompts and from the
header of a listing.  The name of the kind goes up to the first blank, and what comes after
is the quoted text, so the printed form shows the whole token.
-/
import MonkeyTokens.Proofs.Text.Quoted
import MonkeyTokens.Token

namespace MonkeyTokens

/-! ### Names of kinds -/

theorem Kind.mem_all (k : Kind) : k ∈ Kind.all := by
  rcases k with _ | _ | _ | _ | (_ | _ | _ | _ | (_ | _) | (_ | _)) | _ | _ | _ | _ | _ | _ | _
  all_goals decide

/-- A kind is told by its name. -/
theorem Kind.ofName?_name (k : Kind) : Kind.ofName? k.name = some k := by
  have hall : ∀ k ∈ Kind.all, Kind.ofName? k.name = some k := by decide
  exact hall k k.mem_all

/-- The name of a kind is made of capital letters. -/
theorem Kind.isUpper_of_mem_name {k : Kind} : ∀ c ∈ k.name.toList, c.isUpper = true := by
  have hall : ∀ k ∈ Kind.all, k.name.toList.all Char.isUpper = true := by decide
  exact List.all_eq_true.1 (hall k k.mem_all)

theorem Kind.toList_name_ne_nil (k : Kind) : k.name.toList ≠ [] := by
  have hall : ∀ k ∈ Kind.all, k.name.toList ≠ [] := by decide
  exact hall k k.mem_all

/-! ### Tokens -/

namespace Token

theorem toList_render (t : Token) :
    t.render.toList = t.kind.name.toList ++ ' ' :: (Quoted.encode t.literal).toList := by
  simp [render]

/-- A printed token begins with a capital letter. -/
theorem exists_isUpper_render (t : Token) :
    ∃ c body, t.render.toList = c :: body ∧ c.isUpper = true := by
  obtain ⟨c, name, hname⟩ := List.exists_cons_of_ne_nil t.kind.toList_name_ne_nil
  refine ⟨c, name ++ ' ' :: (Quoted.encode t.literal).toList, ?_, ?_⟩
  · rw [toList_render, hname, List.cons_append]
  · have hmem : c ∈ t.kind.name.toList := by
      rw [hname]
      exact List.mem_cons_self
    exact Kind.isUpper_of_mem_name c hmem

/-- A printed token ends with a quote. -/
theorem exists_quote_render (t : Token) : ∃ body, t.render.toList = body ++ ['"'] := by
  refine ⟨t.kind.name.toList ++ ' ' :: '"' :: t.literal.toList.flatMap Quoted.encodeChar, ?_⟩
  rw [toList_render, Quoted.encode, String.toList_ofList]
  simp

/-- A printed token is one line. -/
theorem newline_notMem_render (t : Token) : '\n' ∉ t.render.toList := by
  rw [toList_render, List.mem_append, List.mem_cons]
  intro hmem
  rcases hmem with h | h | h
  · exact absurd (Kind.isUpper_of_mem_name _ h) (by decide)
  · exact absurd h (by decide)
  · exact Quoted.newline_notMem_encode t.literal h

/-- **Tokens with the same printed form are the same.** -/
theorem render_inj {t u : Token} (h : t.render = u.render) : t = u := by
  have hblank : ∀ k : Kind, ' ' ∉ k.name.toList := by
    intro k hmem
    exact absurd (Kind.isUpper_of_mem_name _ hmem) (by decide)
  have hchars := congrArg String.toList h
  rw [toList_render, toList_render] at hchars
  obtain ⟨hname, hquoted⟩ := eq_of_append_mark (hblank t.kind) (hblank u.kind) hchars
  have hkind : t.kind = u.kind := by
    have hread := Kind.ofName?_name t.kind
    rw [String.toList_inj.1 hname, Kind.ofName?_name, Option.some.injEq] at hread
    exact hread.symm
  have hliteral : t.literal = u.literal := Quoted.encode_injective (String.toList_inj.1 hquoted)
  obtain ⟨kind, literal⟩ := t
  simp only at hkind hliteral
  rw [hkind, hliteral]

end Token

end MonkeyTokens
