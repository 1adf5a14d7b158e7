/-
Brackets of a text that comes in pieces.

A cut may fall anywhere between two characters, so the tokens of the pieces are not those
of the whole: a word that is cut in two is two words, and a number too.  The stack of open
brackets does not notice.  It reads marks and nothing else (`extend_eq_foldl_marks`), and
the marks of a text are those of its characters one by one (`marks_lex`): a bracket is a
token whatever stands around it, and no other token has one in it.
-/
import MonkeyTokens.Proofs.Bracket.Verdict
import MonkeyTokens.Proofs.Chain

namespace MonkeyTokens

open ByteClass (ofChar)

/-! ### What a stack takes from tokens -/

namespace BracketStack

/-- Accounts for one bracket. -/
def read (s : BracketStack) (m : Mark) : BracketStack :=
  match s.fault with
  | some _ => s
  | none =>
    match m with
    | .opening b => { s with pending := b :: s.pending }
    | .closing b => s.close b

theorem push_of_mark?_eq_some {t : Token} {m : Mark} (h : t.kind.mark? = some m)
    (s : BracketStack) : s.push t = s.read m := by
  obtain ⟨pending, fault⟩ := s
  cases fault with
  | some fault => rfl
  | none =>
      cases m with
      | opening b => exact push_opening h pending
      | closing b => exact push_closing h pending

/-- **Tokens count by the brackets among them.** -/
theorem extend_eq_foldl_marks (s : BracketStack) (ts : List Token) :
    s.extend ts = (marks ts).foldl read s := by
  induction ts generalizing s with
  | nil => rfl
  | cons t ts ih =>
      rw [extend_cons, ih, marks, marks, List.filterMap_cons]
      cases hm : t.kind.mark? with
      | none => rw [push_of_mark?_eq_none hm]
      | some m => rw [push_of_mark?_eq_some hm, List.foldl_cons]

end BracketStack

/-! ### The brackets of a text -/

/-- The mark that a character of this class stands for, if it is a bracket. -/
def ByteClass.mark? : ByteClass → Option Mark
  | .punct (.opening b) => some (.opening b)
  | .punct (.closing b) => some (.closing b)
  | _ => none

/-- A token is a bracket where its first character is. -/
theorem ByteClass.mark?_kind (k : ByteClass) (literal : String) :
    (k.kind literal).mark? = k.mark? := by
  cases k with
  | punct p => cases p <;> rfl
  | letter =>
      rcases Kind.ofWord_eq literal with ⟨w, -, hw⟩ | ⟨-, hw⟩
      · rw [kind, hw]
        rfl
      · rw [kind, hw]
        rfl
  | _ => rfl

/-- What joins is no bracket. -/
theorem ByteClass.mark?_of_joins {k l : ByteClass} (h : k.joins l = true) : l.mark? = none := by
  cases k <;> cases l <;> simp [joins, mark?] at h ⊢

/-- The brackets among characters. -/
def charMarks (cs : List Char) : List Mark :=
  cs.filterMap fun c => (ofChar c).mark?

theorem charMarks_append (cs ds : List Char) :
    charMarks (cs ++ ds) = charMarks cs ++ charMarks ds :=
  List.filterMap_append

theorem charMarks_eq_nil {cs : List Char} (h : ∀ c ∈ cs, (ofChar c).mark? = none) :
    charMarks cs = [] :=
  List.filterMap_eq_nil_iff.2 h

theorem charMarks_blanks {gap : List Char} (hgap : ∀ b ∈ gap, isBlankChar b = true) :
    charMarks gap = [] := by
  refine charMarks_eq_nil fun b hb => ?_
  rw [isBlankChar_iff.1 (hgap b hb)]
  rfl

/-- The characters that join a token have no bracket among them. -/
theorem charMarks_pastRun (k : ByteClass) (cs : List Char) :
    charMarks (k.pastRun cs) = charMarks cs := by
  have hrun : charMarks (k.run cs) = [] :=
    charMarks_eq_nil fun _ hd => ByteClass.mark?_of_joins (ByteClass.joins_of_mem_run hd)
  have hsplit := congrArg charMarks (k.run_append_pastRun cs)
  rwa [charMarks_append, hrun, List.nil_append] at hsplit

/-- **The brackets of a text are those of its characters**, however these make tokens. -/
theorem marks_lex (cs : List Char) : marks (lex cs) = charMarks cs := by
  induction cs using scan_induction with
  | blanks gap hgap =>
      rw [lex_blanks hgap, charMarks_blanks hgap]
      rfl
  | token gap c cs hgap hc ih =>
      have hfirst : (Token.first c cs).kind.mark? = (ofChar c).mark? :=
        ByteClass.mark?_kind (ofChar c) _
      rw [lex_token hgap hc, charMarks_append, charMarks_blanks hgap, List.nil_append, marks,
        List.filterMap_cons, hfirst, charMarks, List.filterMap_cons]
      rw [marks, charMarks_pastRun] at ih
      rw [ih, charMarks]

/-- The end of a text is no bracket. -/
theorem marks_tokenize (source : String) : marks (tokenize source) = charMarks source.toList := by
  rw [tokenize_eq, marks, List.filterMap_append]
  exact (List.append_nil _).trans (marks_lex source.toList)

theorem marks_tokens (source : String) : marks (tokens source) = charMarks source.toList := by
  rw [tokens_eq, marks_lex]

/-! ### Brackets character by character -/

/-- The token of a character that is a bracket. -/
def bracketToken? (c : Char) : Option Token :=
  match c with
  | '(' => some ⟨.punct (.opening .paren), "("⟩
  | ')' => some ⟨.punct (.closing .paren), ")"⟩
  | '{' => some ⟨.punct (.opening .brace), "\x7b"⟩
  | '}' => some ⟨.punct (.closing .brace), "\x7d"⟩
  | _ => none

/-- The brackets of a text, and of all its characters these only. -/
def rawBrackets (source : String) : List Token :=
  source.toList.filterMap bracketToken?

theorem mark?_bracketToken? (c : Char) :
    (bracketToken? c).bind (·.kind.mark?) = (ofChar c).mark? := by
  unfold bracketToken?
  split
  case h_5 hlparen hrparen hlbrace hrbrace =>
    cases hclass : ofChar c with
    | punct p =>
        have hc := congrArg String.toList (ByteClass.spelling_of_ofChar hclass)
        rcases p with _ | _ | _ | _ | (_ | _) | (_ | _)
        all_goals simp_all [Punct.spelling, ByteClass.mark?, eq_comm]
    | _ => rfl
  all_goals decide

theorem marks_rawBrackets (source : String) :
    marks (rawBrackets source) = charMarks source.toList := by
  unfold marks rawBrackets charMarks
  rw [List.filterMap_filterMap]
  congr 1
  exact funext mark?_bracketToken?

/-! ### Pieces -/

/-- A piece of a text that a stack is given, with or without the token of its end. -/
structure Feed where
  text : String
  withEnd : Bool

/-- The tokens that the stack is given. -/
def Feed.tokens (f : Feed) : List Token :=
  if f.withEnd then tokenize f.text else MonkeyTokens.tokens f.text

/-- The text that pieces make up. -/
def Feed.whole (pieces : List Feed) : String :=
  .join (pieces.map text)

theorem Feed.marks_tokens (f : Feed) : marks f.tokens = charMarks f.text.toList := by
  unfold Feed.tokens
  split
  · exact marks_tokenize f.text
  · exact MonkeyTokens.marks_tokens f.text

namespace BracketStack

/-- Pieces add up to the brackets of the whole. -/
theorem foldl_extend_eq (s : BracketStack) (pieces : List Feed) :
    pieces.foldl (fun s piece => s.extend piece.tokens) s
      = (charMarks (Feed.whole pieces).toList).foldl read s := by
  unfold Feed.whole
  induction pieces generalizing s with
  | nil => rfl
  | cons piece pieces ih =>
      rw [List.foldl_cons, ih, List.map_cons, String.join_cons, String.toList_append,
        charMarks_append, List.foldl_append, extend_eq_foldl_marks, Feed.marks_tokens]

/-- **However a text is cut into pieces, a stack that is given one after another ends as if it
had been given the whole**, and as if it had been given the brackets of the text alone. -/
theorem extend_pieces (s : BracketStack) (pieces : List Feed) :
    pieces.foldl (fun s piece => s.extend piece.tokens) s
        = s.extend (tokens (Feed.whole pieces))
      ∧ s.extend (tokens (Feed.whole pieces))
        = (rawBrackets (Feed.whole pieces)).foldl push s := by
  have hwhole : s.extend (tokens (Feed.whole pieces))
      = (charMarks (Feed.whole pieces).toList).foldl read s := by
    rw [extend_eq_foldl_marks, marks_tokens]
  have hraw : (rawBrackets (Feed.whole pieces)).foldl push s
      = (charMarks (Feed.whole pieces).toList).foldl read s := by
    show s.extend (rawBrackets (Feed.whole pieces)) = _
    rw [extend_eq_foldl_marks, marks_rawBrackets]
  rw [hwhole, hraw]
  exact ⟨foldl_extend_eq s pieces, rfl⟩

end BracketStack

end MonkeyTokens
