/-
Scans do not cut characters in two.

A scan moves byte by byte, and the text of a token is cut out between two places that it came
to.  A place inside a character, or two places in the wrong order, would leave nothing to cut
out.  Neither happens: the runs that are passed byte by byte are runs of ASCII bytes, and any
other character is passed as a whole.

`Cursor.alongScan` lists the cursors of a scan step by step.  All of them stand on boundaries
(`within_alongScan`), and what can be relied on in a scan (`SafeScan`) is read off from the
seams that they stand on.
-/
import Mathlib.Data.List.Chain
import MonkeyTokens.Proofs.Rejoining
import MonkeyTokens.Proofs.Stream.Requests

namespace MonkeyTokens

open Utf8 (lead size slice)
open ByteClass (ofChar)

namespace Cursor

/-! ### The steps of a scan -/

/-- The cursors along a run of bytes that satisfy `p`, from the one at its beginning to the one
at its end. -/
def along (p : UInt8 → Bool) (c : Cursor) : List Cursor :=
  if _h : c.pos < c.source.utf8ByteSize ∧ p c.current then
    c :: along p { c with pos := c.pos + 1 }
  else [c]
termination_by c.source.utf8ByteSize - c.pos
decreasing_by omega

/-- The cursors along the token whose first byte is at the cursor. -/
def alongToken (c : Cursor) : List Cursor :=
  match ByteClass.ofByte c.current with
  | .punct _ => [c, c.stepByte]
  | .letter => c.along isLetter
  | .digit => c.along isDigit
  | .blank | .other => [c, c.stepChar]

/-- The cursors along a scan that is called with a cursor: along the blanks, and then along the
token unless the text is over.  The cursor between the two is listed twice. -/
def alongScan (c : Cursor) : List Cursor :=
  c.along isBlank ++ if c.skipBlanks.atEnd then [] else c.skipBlanks.alongToken

/-- The way along a run leads past it. -/
theorem getLast?_along (p : UInt8 → Bool) (c : Cursor) :
    (c.along p).getLast? = some (c.skipWhile p) := by
  fun_induction skipWhile p c with
  | case1 c h ih => rw [along, dif_pos h, List.getLast?_cons, ih, Option.getD_some]
  | case2 c h => rw [along, dif_neg h, List.getLast?_singleton]

theorem getLast?_alongToken (c : Cursor) : c.alongToken.getLast? = some c.skipToken := by
  unfold alongToken skipToken
  cases ByteClass.ofByte c.current with
  | letter => exact getLast?_along isLetter c
  | digit => exact getLast?_along isDigit c
  | punct | blank | other => rfl

/-- The way along a scan leads past the blanks, and past the token unless the text is over. -/
theorem getLast?_alongScan (c : Cursor) : c.alongScan.getLast?
    = some (if c.skipBlanks.atEnd then c.skipBlanks else c.skipBlanks.skipToken) := by
  unfold alongScan
  by_cases hend : c.skipBlanks.atEnd = true
  · rw [if_pos hend, if_pos hend, List.append_nil, getLast?_along]
    rfl
  · rw [if_neg hend, if_neg hend, List.getLast?_append, getLast?_alongToken, Option.some_or]

/-- One step of a cursor, or none. -/
def Moves (c d : Cursor) : Prop :=
  d = c ∨ d = c.stepByte ∨ d = c.stepChar

@[simp] theorem head?_along (p : UInt8 → Bool) (c : Cursor) : (c.along p).head? = some c := by
  rw [along]
  split <;> rfl

theorem isChain_along (p : UInt8 → Bool) (c : Cursor) : (c.along p).IsChain Moves := by
  fun_induction along p c with
  | case1 c h ih =>
      have hstep : c.stepByte = { c with pos := c.pos + 1 } := by
        rw [stepByte, if_neg (by simpa [atEnd] using h.1)]
      rw [List.isChain_cons, head?_along, ← hstep]
      rw [← hstep] at ih
      exact ⟨by simp [Moves], ih⟩
  | case2 c h => exact .singleton c

theorem head?_alongToken (c : Cursor) : c.alongToken.head? = some c := by
  unfold alongToken
  split <;> simp

theorem isChain_alongToken (c : Cursor) : c.alongToken.IsChain Moves := by
  unfold alongToken
  cases ByteClass.ofByte c.current with
  | punct p => exact List.isChain_pair.2 (.inr (.inl rfl))
  | letter => exact isChain_along isLetter c
  | digit => exact isChain_along isDigit c
  | blank | other => exact List.isChain_pair.2 (.inr (.inr rfl))

/-- A scan leaves out none of the places that it comes to. -/
theorem isChain_alongScan (c : Cursor) : c.alongScan.IsChain Moves := by
  refine (isChain_along isBlank c).append ?_ ?_
  · split
    · exact .nil
    · exact isChain_alongToken c.skipBlanks
  · rw [getLast?_along]
    split
    · simp
    · rw [head?_alongToken]
      simp [Moves, skipBlanks]

/-! ### Every step ends on a boundary -/

/-- Does the cursor stand between two characters, or at an end of the text? -/
def OnBoundary (c : Cursor) : Prop :=
  String.Pos.Raw.IsValid c.source ⟨c.pos⟩

theorem onBoundary_seam (us vs : List Char) : (seam us vs).OnBoundary :=
  isValid_size us vs

/-- On a boundary of this text. -/
def Within (cs : List Char) (c : Cursor) : Prop :=
  c.source = .ofList cs ∧ c.OnBoundary

theorem within_seam {cs us vs : List Char} (h : us ++ vs = cs) : Within cs (seam us vs) :=
  ⟨by rw [source_seam, h], onBoundary_seam us vs⟩

/-- A run of ASCII bytes is passed from boundary to boundary. -/
theorem within_along {p : UInt8 → Bool} (hp : ∀ b, p b = true → b < 0x80) (us vs : List Char) :
    ∀ c ∈ (seam us vs).along p, Within (us ++ vs) c := by
  induction vs generalizing us with
  | nil =>
      rw [along, dif_neg (by simp)]
      simpa using @within_seam _ us [] rfl
  | cons d vs ih =>
      have hhere : Within (us ++ d :: vs) (seam us (d :: vs)) := within_seam rfl
      by_cases hd : p (lead d) = true
      · have hlt : (seam us (d :: vs)).pos < (seam us (d :: vs)).source.utf8ByteSize :=
          atEnd_eq_false_iff.1 (by simp)
        have hstep := stepByte_seam us vs (hp _ hd)
        rw [stepByte, if_neg (by simp)] at hstep
        have hnext := ih (us ++ [d])
        rw [List.append_assoc, List.singleton_append] at hnext
        rw [along, dif_pos ⟨hlt, by simpa using hd⟩, hstep, List.forall_mem_cons]
        exact ⟨hhere, hnext⟩
      · rw [along, dif_neg (by simp [hd])]
        simpa using hhere

/-- A token is passed from boundary to boundary. -/
theorem within_alongToken (us vs : List Char) (d : Char) :
    ∀ c ∈ (seam us (d :: vs)).alongToken, Within (us ++ d :: vs) c := by
  have hhere : Within (us ++ d :: vs) (seam us (d :: vs)) := within_seam rfl
  have hnext : Within (us ++ d :: vs) (seam (us ++ [d]) vs) := within_seam (by simp)
  rw [alongToken, current_seam]
  cases hd : ByteClass.ofByte (lead d) with
  | punct p =>
      have hascii : lead d < 0x80 := ByteClass.lt_of_ofByte_ne_other _ (by simp [hd])
      simp only [stepByte_seam us vs hascii, List.forall_mem_cons]
      exact ⟨hhere, hnext, by simp⟩
  | letter => exact within_along (ByteClass.lt_of_test (by simp) ByteClass.isLetter_eq) us _
  | digit => exact within_along (ByteClass.lt_of_test (by simp) ByteClass.isDigit_eq) us _
  | blank | other =>
      simp only [stepChar_seam, List.forall_mem_cons]
      exact ⟨hhere, hnext, by simp⟩

/-- **A scan from a boundary stands on a boundary after each step.** -/
theorem within_alongScan (us vs : List Char) :
    ∀ c ∈ (seam us vs).alongScan, Within (us ++ vs) c := by
  have hblanks := within_along (ByteClass.lt_of_test (by simp) ByteClass.isBlank_eq) us vs
  rw [alongScan, List.forall_mem_append]
  refine ⟨hblanks, ?_⟩
  rw [skipBlanks_seam, atEnd_seam]
  cases hrest : vs.dropWhile isBlankChar with
  | nil => simp
  | cons d ds =>
      have hsplit : us ++ vs.takeWhile isBlankChar ++ d :: ds = us ++ vs := by
        rw [← hrest, List.append_assoc, List.takeWhile_append_dropWhile]
      have htoken := within_alongToken (us ++ vs.takeWhile isBlankChar) ds d
      rw [hsplit] at htoken
      simpa using htoken

end Cursor

/-! ### What a scan relies on -/

namespace Cursor

/-- The cursor of a scan after the blanks. -/
def pastBlanks (source : String) (pos : Nat) : Cursor :=
  (ofOffset source pos).skipBlanks

/-- The cursor after the blanks stands on a seam. -/
theorem exists_pastBlanks_eq_seam (source : String) (pos : Nat) :
    ∃ us vs, source = .ofList (us ++ vs) ∧ pastBlanks source pos = seam us vs := by
  obtain ⟨cs, rfl⟩ := source.exists_eq_ofList
  obtain ⟨us, vs, rfl, hseam, -⟩ := exists_ofOffset_eq_seam cs pos
  refine ⟨us ++ vs.takeWhile isBlankChar, vs.dropWhile isBlankChar, ?_, ?_⟩
  · rw [List.append_assoc, List.takeWhile_append_dropWhile]
  · rw [pastBlanks, hseam, skipBlanks_seam]

/-- From one end of a lexeme to the other the lexeme is cut out. -/
theorem cutFrom_skipToken_seam (us cs : List Char) (c : Char) :
    (seam us (c :: cs)).skipToken.cutFrom (size us)
      = .ok (.ofList (c :: (ofChar c).run cs)) := by
  have hle : size us ≤ size (us ++ c :: (ofChar c).run cs) := by simp
  rw [skipToken_seam, cutFrom, pos_seam, cut, if_neg (Nat.not_lt.2 hle), between_seam]

end Cursor

open Cursor (pastBlanks)

/-- What can be relied on where a scan is called at an offset.  Unless it reads the end, a scan
cuts text out once: from the cursor after the blanks to the cursor after the token. -/
structure SafeScan (source : String) (pos : Nat) : Prop where
  /-- The way of the cursor begins where it is put. -/
  first_step : (Cursor.ofOffset source pos).alongScan.head? = some (.ofOffset source pos)
  /-- It goes on by single steps. -/
  moves : (Cursor.ofOffset source pos).alongScan.IsChain Cursor.Moves
  /-- It leads to where the scan stops. -/
  last_step : ∃ c ∈ (Cursor.ofOffset source pos).alongScan.getLast?,
    c.pos = (Span.after source pos).stop
  /-- After each step the cursor stands on a boundary. -/
  steps : ∀ c ∈ (Cursor.ofOffset source pos).alongScan, c.source = source ∧ c.OnBoundary
  /-- The announced width of a character does not reach beyond the text. -/
  width : (pastBlanks source pos).atEnd = false → (pastBlanks source pos).stepChar.pos
    = (pastBlanks source pos).pos + Utf8.leadWidth (pastBlanks source pos).current
  /-- The places between which text is cut out are in order. -/
  in_order : (pastBlanks source pos).atEnd = false →
    (pastBlanks source pos).pos < (pastBlanks source pos).skipToken.pos
      ∧ (pastBlanks source pos).skipToken.pos ≤ source.utf8ByteSize
  /-- They are boundaries, so that the text between them is not left out. -/
  on_boundaries : (pastBlanks source pos).atEnd = false →
    (pastBlanks source pos).OnBoundary ∧ (pastBlanks source pos).skipToken.OnBoundary
  /-- Cutting is no error, and gives the text of the token. -/
  cut : (pastBlanks source pos).atEnd = false →
    (pastBlanks source pos).skipToken.cutFrom (pastBlanks source pos).pos
      = .ok (Span.after source pos).token.literal
  /-- The scan stops within the text, and not before its offset. -/
  stop_ge : min pos source.utf8ByteSize ≤ (Span.after source pos).stop
  stop_le : (Span.after source pos).stop ≤ source.utf8ByteSize
  stop_boundary : String.Pos.Raw.IsValid source ⟨(Span.after source pos).stop⟩
  /-- A token has text, and it is the text before the place where the scan stops. -/
  token : (Span.after source pos).token.isEof = false →
    (Span.after source pos).token.literal ≠ ""
      ∧ Utf8.bytes (Span.after source pos).token.literal
        = slice (Utf8.bytes source)
            ((Span.after source pos).stop - (Span.after source pos).token.literal.utf8ByteSize)
            (Span.after source pos).stop
  /-- The end is read at the end only, and has no text. -/
  ending : (Span.after source pos).token.isEof = true →
    (Span.after source pos).stop = source.utf8ByteSize
      ∧ (Span.after source pos).token.literal = ""

namespace Span

variable {source : String} {pos : Nat}

/-- What a scan reads from the cursor after the blanks. -/
theorem after_eq (source : String) (pos : Nat) : Span.after source pos
    = if (pastBlanks source pos).atEnd then
        ⟨pos, (pastBlanks source pos).pos, (pastBlanks source pos).pos, .eof⟩
      else
        let literal := (pastBlanks source pos).skipToken.between (pastBlanks source pos).pos
          (pastBlanks source pos).skipToken.pos
        ⟨pos, (pastBlanks source pos).pos, (pastBlanks source pos).skipToken.pos,
          ⟨(ByteClass.ofByte (pastBlanks source pos).current).kind literal, literal⟩⟩ := rfl

/-- A scan stops after the blanks, or after the token that follows them. -/
theorem stop_after (source : String) (pos : Nat) : (Span.after source pos).stop
    = (if (pastBlanks source pos).atEnd then pastBlanks source pos
        else (pastBlanks source pos).skipToken).pos := by
  rw [after_eq]
  by_cases hend : (pastBlanks source pos).atEnd = true
  · rw [if_pos hend, if_pos hend]
  · rw [if_neg hend, if_neg hend]

/-- A scan reads the end where nothing is left after the blanks. -/
theorem isEof_after (source : String) (pos : Nat) :
    (Span.after source pos).token.isEof = (pastBlanks source pos).atEnd := by
  rw [after_eq]
  by_cases hend : (pastBlanks source pos).atEnd = true
  · rw [if_pos hend, hend]
    rfl
  · rw [if_neg hend, Bool.eq_false_iff.2 hend]
    simp [Token.isEof, ByteClass.kind_ne_eof]

/-- Before the end a scan reads the lexeme after the blanks. -/
theorem exists_after_eq (h : (pastBlanks source pos).atEnd = false) :
    ∃ us c cs, source = .ofList (us ++ c :: cs)
      ∧ pastBlanks source pos = .seam us (c :: cs)
      ∧ Span.after source pos
        = ⟨pos, size us, size (us ++ c :: (ofChar c).run cs), Token.first c cs⟩ := by
  obtain ⟨us, vs, rfl, hpast⟩ := Cursor.exists_pastBlanks_eq_seam source pos
  cases vs with
  | nil =>
      rw [hpast, Cursor.atEnd_seam] at h
      cases h
  | cons c cs =>
      refine ⟨us, c, cs, rfl, hpast, ?_⟩
      rw [after_eq, hpast, if_neg (by simp), Cursor.skipToken_seam, Cursor.current_seam]
      simp only [Cursor.pos_seam, Cursor.between_seam]
      rfl

end Span

/-! ### Where a scan stops -/

/-- Each step of a scan ends on a boundary of the text. -/
theorem within_steps (source : String) (pos : Nat) :
    ∀ c ∈ (Cursor.ofOffset source pos).alongScan, c.source = source ∧ c.OnBoundary := by
  obtain ⟨cs, rfl⟩ := source.exists_eq_ofList
  obtain ⟨us, vs, rfl, hseam, -⟩ := Cursor.exists_ofOffset_eq_seam cs pos
  rw [hseam]
  exact Cursor.within_alongScan us vs

theorem exists_last_step (source : String) (pos : Nat) :
    ∃ c ∈ (Cursor.ofOffset source pos).alongScan.getLast?, c.pos = (Span.after source pos).stop :=
  ⟨_, Cursor.getLast?_alongScan _, (Span.stop_after source pos).symm⟩

/-- A scan stops on a boundary, since its last step ends there. -/
theorem isValid_stop_after (source : String) (pos : Nat) :
    String.Pos.Raw.IsValid source ⟨(Span.after source pos).stop⟩ := by
  obtain ⟨c, hlast, hstop⟩ := exists_last_step source pos
  obtain ⟨hsource, hvalid⟩ := within_steps source pos c (List.mem_of_getLast? hlast)
  rwa [Cursor.OnBoundary, hsource, hstop] at hvalid

/-- No scan goes back behind its offset. -/
theorem min_le_stop_after (source : String) (pos : Nat) :
    min pos source.utf8ByteSize ≤ (Span.after source pos).stop := by
  have hle : min pos source.utf8ByteSize ≤ (pastBlanks source pos).pos :=
    Nat.le_trans (Cursor.min_le_pos_ofOffset source pos) (Cursor.pos_le_pos_skipBlanks _)
  rw [Span.stop_after]
  cases hend : (pastBlanks source pos).atEnd with
  | true => exact hle
  | false => exact Nat.le_trans hle (Nat.le_of_lt (Cursor.pos_lt_pos_skipToken hend))

/-- The end is read after the last character. -/
theorem after_of_isEof {source : String} {pos : Nat}
    (h : (Span.after source pos).token.isEof = true) :
    (Span.after source pos).stop = source.utf8ByteSize
      ∧ (Span.after source pos).token.literal = "" := by
  refine ⟨?_, congrArg Token.literal (Span.token_after_of_isEof h)⟩
  rw [Span.isEof_after] at h
  rw [Span.stop_after, if_pos h]
  have hle : source.utf8ByteSize ≤ (pastBlanks source pos).pos := by
    simpa [Cursor.atEnd, pastBlanks] using h
  have hstop := Span.stop_after_le source pos
  rw [Span.stop_after, if_pos h] at hstop
  exact Nat.le_antisymm hstop hle

/-! ### The token -/

/-- A token is the text before the place where its scan stops. -/
theorem after_of_not_isEof {source : String} {pos : Nat}
    (h : (Span.after source pos).token.isEof = false) :
    (Span.after source pos).token.literal ≠ ""
      ∧ Utf8.bytes (Span.after source pos).token.literal
        = slice (Utf8.bytes source)
            ((Span.after source pos).stop - (Span.after source pos).token.literal.utf8ByteSize)
            (Span.after source pos).stop := by
  rw [Span.isEof_after] at h
  obtain ⟨us, c, cs, rfl, -, hscan⟩ := Span.exists_after_eq h
  have hstart := congrArg Piece.start (Span.piece_lexeme us c cs pos (size us))
  rw [hscan]
  refine ⟨by simp [Token.first], ?_⟩
  rw [Token.bytes_first, Utf8.bytes_ofList]
  exact (slice_lexeme us c cs).symm.trans (congrArg (slice _ · _) hstart.symm)

/-! ### Every scan -/

/-- **Every scan is safe.** -/
theorem safeScan (source : String) (pos : Nat) : SafeScan source pos where
  first_step := by simp [Cursor.alongScan]
  moves := Cursor.isChain_alongScan _
  last_step := exists_last_step source pos
  steps := within_steps source pos
  width h := by
    obtain ⟨us, c, cs, -, hpast, -⟩ := Span.exists_after_eq h
    rw [hpast, Cursor.stepChar_seam, Cursor.current_seam, (Utf8.leadWidth_lead c).1]
    simp
  in_order h := by
    have hle := Span.stop_after_le source pos
    rw [Span.stop_after, h] at hle
    exact ⟨Cursor.pos_lt_pos_skipToken h, hle⟩
  on_boundaries h := by
    obtain ⟨us, c, cs, -, hpast, -⟩ := Span.exists_after_eq h
    rw [hpast, Cursor.skipToken_seam]
    exact ⟨Cursor.onBoundary_seam .., Cursor.onBoundary_seam ..⟩
  cut h := by
    obtain ⟨us, c, cs, -, hpast, hscan⟩ := Span.exists_after_eq h
    rw [hpast, hscan]
    exact Cursor.cutFrom_skipToken_seam us cs c
  stop_ge := min_le_stop_after source pos
  stop_le := Span.stop_after_le source pos
  stop_boundary := isValid_stop_after source pos
  token := after_of_not_isEof
  ending := after_of_isEof

/-- **No scan cuts a character in two**, from whatever offset it is called, and no stream of
tokens comes to stand inside one, however it is asked for them. -/
theorem scan_cuts_safely (source : String) :
    (∀ pos, SafeScan source pos)
      ∧ ∀ requests : List Request,
        ((TokenStream.ofText source).askAll requests).source = source
        ∧ ((TokenStream.ofText source).askAll requests).position ≤ source.utf8ByteSize
        ∧ String.Pos.Raw.IsValid source
          ⟨((TokenStream.ofText source).askAll requests).position⟩ := by
  refine ⟨safeScan source, ?_⟩
  intro requests
  obtain ⟨us, vs, rfl, hask, -⟩ := TokenStream.exists_askAll_ofText source requests
  rw [hask, TokenStream.position_seam]
  refine ⟨rfl, ?_, Cursor.isValid_size us vs⟩
  simp

end MonkeyTokens
