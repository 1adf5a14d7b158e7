/-
A quoted text is one line, and shows which text is quoted.

Line feeds are written as escapes, and the escapes themselves are made of letters, digits
and brackets.  The words for single characters are of different lengths, but what begins
with one of them begins with no other (`prefixFree_encodeChar`): a backslash begins escapes
only, the character after it tells which, and a code point ends with its closing brace.
-/
import MonkeyTokens.Proofs.Text.Parts
import MonkeyTokens.Text.Quoted

namespace MonkeyTokens.Quoted

/-! ### Hexadecimal numbers -/

theorem exists_digitChar_of_mem_toDigits {n : Nat} {c : Char} (h : c ∈ Nat.toDigits 16 n) :
    ∃ d < 16, c = Nat.digitChar d := by
  induction n using Nat.strongRecOn with
  | _ n ih =>
      rw [Nat.toDigits_eq_if (by decide)] at h
      split at h
      · exact ⟨n, ‹_›, List.mem_singleton.1 h⟩
      · rcases List.mem_append.1 h with h | h
        · exact ih (n / 16) (Nat.div_lt_self (by omega) (by decide)) h
        · exact ⟨n % 16, Nat.mod_lt n (by decide), List.mem_singleton.1 h⟩

/-- What is no hexadecimal digit stands in no number. -/
theorem notMem_toDigits {c : Char} (h : ∀ d < 16, c ≠ Nat.digitChar d) (n : Nat) :
    c ∉ Nat.toDigits 16 n := by
  intro hmem
  obtain ⟨d, hd, hc⟩ := exists_digitChar_of_mem_toDigits hmem
  exact h d hd hc

/-- The number that a hexadecimal digit stands for. -/
def digitValue (c : Char) : Nat :=
  if c.isDigit then c.toNat - '0'.toNat else c.toNat - 'a'.toNat + 10

/-- The number that hexadecimal digits stand for. -/
def ofHex (cs : List Char) : Nat :=
  cs.foldl (fun n c => 16 * n + digitValue c) 0

theorem digitValue_digitChar : ∀ d < 16, digitValue (Nat.digitChar d) = d := by
  decide

theorem ofHex_toDigits (n : Nat) : ofHex (Nat.toDigits 16 n) = n := by
  induction n using Nat.strongRecOn with
  | _ n ih =>
      rw [Nat.toDigits_eq_if (by decide)]
      split
      · rename_i hlt
        rw [ofHex, List.foldl_cons, List.foldl_nil, digitValue_digitChar n hlt, Nat.mul_zero,
          Nat.zero_add]
      · have hrest := ih (n / 16) (Nat.div_lt_self (by omega) (by decide))
        rw [ofHex] at hrest ⊢
        rw [List.foldl_append, hrest, List.foldl_cons, List.foldl_nil,
          digitValue_digitChar _ (Nat.mod_lt n (by decide)), Nat.div_add_mod]

/-! ### One line -/

theorem newline_notMem_codePoint (c : Char) : '\n' ∉ codePoint c := by
  intro h
  rcases List.mem_append.1 h with h | h
  · rcases List.mem_append.1 h with h | h
    · exact absurd h (by decide)
    · exact notMem_toDigits (by decide) c.toNat h
  · exact absurd h (by decide)

theorem newline_notMem_encodeChar (c : Char) : '\n' ∉ encodeChar c := by
  unfold encodeChar
  split
  all_goals try decide
  split
  · exact newline_notMem_codePoint c
  · rw [List.mem_singleton]
    intro heq
    subst heq
    contradiction

/-- **Whatever the text, its quoted form has no line feed.** -/
theorem newline_notMem_encode (text : String) : '\n' ∉ (encode text).toList := by
  rw [encode, String.toList_ofList, List.mem_append, List.mem_append, List.mem_flatMap]
  intro hmem
  rcases hmem with (h | ⟨c, -, h⟩) | h
  · exact absurd h (by decide)
  · exact newline_notMem_encodeChar c h
  · exact absurd h (by decide)

/-! ### Reading back -/

/-- The character that the beginning of a quoted text stands for. -/
def decodeFirst : List Char → Option Char
  | '\\' :: '0' :: _ => some '\x00'
  | '\\' :: 't' :: _ => some '\t'
  | '\\' :: 'r' :: _ => some '\r'
  | '\\' :: 'n' :: _ => some '\n'
  | '\\' :: 'u' :: '{' :: cs => some (.ofNat (ofHex (cs.takeWhile (· ≠ '}'))))
  | '\\' :: c :: _ => some c
  | c :: _ => some c
  | [] => none

theorem decodeFirst_codePoint (c : Char) (cs : List Char) :
    decodeFirst (codePoint c ++ cs) = some c := by
  have hbrace : '}' ∉ Nat.toDigits 16 c.toNat := notMem_toDigits (by decide) c.toNat
  have htake : (Nat.toDigits 16 c.toNat ++ '}' :: cs).takeWhile (· ≠ '}')
      = Nat.toDigits 16 c.toNat := takeWhile_append_mark hbrace (by simp)
  have hsplit : codePoint c ++ cs
      = '\\' :: 'u' :: '{' :: (Nat.toDigits 16 c.toNat ++ '}' :: cs) := by
    simp [codePoint]
  rw [hsplit, decodeFirst, htake, ofHex_toDigits, Char.ofNat_toNat]

/-- A character that is no backslash stands for itself. -/
theorem decodeFirst_self {c : Char} (hc : c ≠ '\\') (cs : List Char) :
    decodeFirst (c :: cs) = some c := by
  unfold decodeFirst
  split
  all_goals simp_all

theorem decodeFirst_encodeChar (c : Char) (cs : List Char) :
    decodeFirst (encodeChar c ++ cs) = some c := by
  unfold encodeChar
  split
  case h_7 hbackslash =>
    split
    · exact decodeFirst_codePoint c cs
    · exact decodeFirst_self hbackslash cs
  all_goals rfl

theorem prefixFree_encodeChar : PrefixFree encodeChar :=
  .of_reader decodeFirst decodeFirst_encodeChar

theorem encodeChar_ne_nil (c : Char) : encodeChar c ≠ [] := by
  intro hnil
  have hread := decodeFirst_encodeChar c []
  rw [hnil] at hread
  cases hread

/-- **Texts with the same quoted form are the same.** -/
theorem encode_injective {s t : String} (h : encode s = encode t) : s = t := by
  have hchars := String.ofList_injective h
  have hcodes := List.append_cancel_left (List.append_cancel_right hchars)
  exact String.toList_inj.1 (prefixFree_encodeChar.flatMap_injective encodeChar_ne_nil hcodes)

end MonkeyTokens.Quoted
