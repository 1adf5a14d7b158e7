/-
Asking a stream for its tokens.

A stream can be asked in two ways.  They differ in what they answer at the end of the text and
in nothing else, so a stream that is asked now in the one way and now in the other moves on as
if it had been asked in one.

Between two requests a stream stands between two characters of its text, with some characters
behind it and the rest ahead (`TokenStream.seam`).  A request takes the first of the tokens
ahead, if there is one, and the characters up to its end (`ask_seam`).  So after some requests
the tokens ahead are those of the whole text, less one for each request
(`exists_askAll_ofText`).
-/
import MonkeyTokens.Proofs.Chain
import MonkeyTokens.TokenStream

namespace MonkeyTokens

open Utf8 (size)
open ByteClass (ofChar)

/-- The ways of asking a stream for its next token. -/
inductive Request where
  /-- For any token, that of the end included. -/
  | pull
  /-- For a token before the end. -/
  | next
  deriving DecidableEq

/-- The answer at the end of a text. -/
def Request.atEnd : Request → Option Token
  | .pull => some .eof
  | .next => none

namespace TokenStream

/-- The answer to a request, and the stream after it. -/
def ask (s : TokenStream) : Request → Option Token × TokenStream
  | .pull => (some s.pull.1, s.pull.2)
  | .next => s.next?

/-- The stream after some requests. -/
def askAll (s : TokenStream) (requests : List Request) : TokenStream :=
  requests.foldl (fun s r => (s.ask r).2) s

@[simp] theorem askAll_nil (s : TokenStream) : s.askAll [] = s := rfl

@[simp] theorem askAll_cons (s : TokenStream) (r : Request) (rs : List Request) :
    s.askAll (r :: rs) = (s.ask r).2.askAll rs := rfl

theorem askAll_append (s : TokenStream) (rs rs' : List Request) :
    s.askAll (rs ++ rs') = (s.askAll rs).askAll rs' :=
  List.foldl_append

/-! ### One request -/

variable {s : TokenStream}

theorem ask_of_token (h : s.nextSpan.token.isEof = false) (r : Request) :
    s.ask r = (some s.nextSpan.token, s.rest) := by
  cases r with
  | pull => rfl
  | next => simp [ask, next?, h]

theorem ask_of_end (h : s.nextSpan.token = .eof) (r : Request) : s.ask r = (r.atEnd, s.rest) := by
  cases r with
  | pull => simp [ask, pull, h, Request.atEnd]
  | next => simp [ask, next?, h, Request.atEnd, Token.isEof, Token.eof]

/-- The stream with `behind` taken apart and `ahead` left. -/
def seam (behind ahead : List Char) : TokenStream :=
  ⟨.ofList (behind ++ ahead), size behind⟩

@[simp] theorem source_seam (us vs : List Char) : (seam us vs).source = .ofList (us ++ vs) := rfl

@[simp] theorem position_seam (us vs : List Char) : (seam us vs).position = size us := rfl

theorem ofText_eq_seam (cs : List Char) : ofText (.ofList cs) = seam [] cs := rfl

/-- **A request takes the first token ahead**, and where there is none it takes what is left. -/
theorem ask_seam (us vs : List Char) (r : Request) :
    lex vs = [] ∧ (seam us vs).ask r = (r.atEnd, seam (us ++ vs) [])
      ∨ ∃ t passed vs', vs = passed ++ vs' ∧ passed ≠ [] ∧ lex vs = t :: lex vs'
        ∧ (seam us vs).ask r = (some t, seam (us ++ passed) vs') := by
  induction vs using scan_induction with
  | blanks gap hgap =>
      have hspan : (seam us gap).nextSpan = ⟨size us, size (us ++ gap), size (us ++ gap), .eof⟩ :=
        Span.after_blanks hgap
      left
      refine ⟨lex_blanks hgap, ?_⟩
      rw [ask_of_end (by rw [hspan]), rest, hspan]
      simp [seam]
  | token gap c cs hgap hc _ =>
      have hspan : (seam us (gap ++ c :: cs)).nextSpan = ⟨size us, size (us ++ gap),
          size (us ++ gap ++ c :: (ofChar c).run cs), Token.first c cs⟩ :=
        Span.after_gap hgap hc
      have hsplit : gap ++ c :: (ofChar c).run cs ++ (ofChar c).pastRun cs = gap ++ c :: cs :=
        append_lexeme [] gap c cs
      right
      refine ⟨Token.first c cs, gap ++ c :: (ofChar c).run cs, (ofChar c).pastRun cs, hsplit.symm,
        by simp, lex_token hgap hc cs, ?_⟩
      rw [ask_of_token (by rw [hspan]; exact Token.isEof_first c cs), rest, hspan, seam, seam,
        List.append_assoc us gap, List.append_assoc us (gap ++ _), hsplit]

/-! ### Many requests -/

/-- What requests leave of a text. -/
theorem exists_askAll_seam (us vs : List Char) (rs : List Request) :
    ∃ us' vs', us ++ vs = us' ++ vs' ∧ (seam us vs).askAll rs = seam us' vs'
      ∧ lex vs' = (lex vs).drop rs.length := by
  induction rs generalizing us vs with
  | nil => exact ⟨us, vs, rfl, rfl, rfl⟩
  | cons r rs ih =>
      rcases ask_seam us vs r with ⟨hlex, hask⟩ | ⟨t, passed, vs₁, rfl, -, hlex, hask⟩
      · obtain ⟨us', vs', hsplit, hall, hrest⟩ := ih (us ++ vs) []
        refine ⟨us', vs', by rw [← hsplit, List.append_nil], by rw [askAll_cons, hask, hall], ?_⟩
        rw [hrest, hlex, lex_nil, List.drop_nil, List.drop_nil]
      · obtain ⟨us', vs', hsplit, hall, hrest⟩ := ih (us ++ passed) vs₁
        refine ⟨us', vs', by rw [← hsplit, List.append_assoc], by rw [askAll_cons, hask, hall], ?_⟩
        rw [hrest, hlex, List.length_cons, List.drop_succ_cons]

/-- **However a stream is asked, it hands out the tokens of its text one after another.** -/
theorem exists_askAll_ofText (source : String) (rs : List Request) :
    ∃ us vs, source = .ofList (us ++ vs) ∧ (ofText source).askAll rs = seam us vs
      ∧ lex vs = (tokens source).drop rs.length := by
  obtain ⟨cs, rfl⟩ := source.exists_eq_ofList
  obtain ⟨us, vs, hsplit, hall, hrest⟩ := exists_askAll_seam [] cs rs
  rw [List.nil_append] at hsplit
  refine ⟨us, vs, by rw [hsplit], by rw [ofText_eq_seam, hall], ?_⟩
  rw [hrest, tokens_eq, String.toList_ofList]

end TokenStream

end MonkeyTokens
