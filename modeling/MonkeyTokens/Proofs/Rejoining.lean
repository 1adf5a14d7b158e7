/-
A scan from anywhere joins the chain again.

Called at an offset that the chain of scans does not stop at, a scan may begin between two
tokens, inside a character or in the middle of a run.  It reads a whole token of the chain
or the rest of one, and either way it stops where that token stops, so from there on the
chain goes on as if it had come from the beginning.

`Meets` says how a scan and a chain come together, and the induction is along the chain:
a place is among the blanks before the next token, inside this token, or beyond it.
-/
import MonkeyTokens.Proofs.MaximalMunch
import MonkeyTokens.Proofs.Text.Boundary

namespace MonkeyTokens

open Utf8 (size)
open ByteClass (ofChar)

/-- A scan called at `pos` has read the token of `c`, or what is left of it after `pos`. -/
structure EndsWith (pos : Nat) (scan c : Span) : Prop where
  not_end : c.token.isEof = false
  stop_eq : c.stop = scan.stop
  length_eq : c.start + c.token.literal.utf8ByteSize = c.stop
  literal_ne : scan.token.literal ≠ ""
  suffix : ∃ cut, c.token.literal = cut ++ scan.token.literal
  /-- Only a scan called inside the token reads less than all of it. -/
  token_eq : scan.token = c.token ∨ c.start < pos ∧ pos < c.stop

/-- A scan that reads the end reads nothing else. -/
theorem Span.token_after_of_isEof {source : String} {pos : Nat}
    (h : (Span.after source pos).token.isEof = true) : (Span.after source pos).token = .eof := by
  unfold Span.after at h ⊢
  dsimp only at h ⊢
  split at h
  · rw [if_pos ‹_›]
  · simp [Token.isEof, ByteClass.kind_ne_eof] at h

/-- The scans of a chain that read tokens stop beyond where the chain began. -/
theorem stop_lt_of_mem_spansFrom {source : String} {pos : Nat} :
    ∀ s ∈ spansFrom source pos, s.token.isEof = false → pos < s.stop := by
  fun_induction spansFrom source pos with
  | case1 pos span hend =>
      intro s hs hs'
      rw [List.mem_singleton.1 hs] at hs'
      rw [hs'] at hend
      cases hend
  | case2 pos span hend ih =>
      have hstep := (origin_lt_stop_after (Bool.not_eq_true _ ▸ hend)).2
      intro s hs hs'
      rcases List.mem_cons.1 hs with rfl | hs
      · exact hstep
      · exact Nat.lt_trans hstep (ih s hs hs')

/-- How a scan called at the boundary `here` meets a chain. -/
inductive Meets (source : String) (here : Nat) (scan : Span) (chain : List Span) : Prop
  /-- The scan reads the end, and the chain has passed its tokens. -/
  | past (token_eq : scan.token = .eof) (stop_eq : scan.stop = source.utf8ByteSize)
      (passed : ∀ s ∈ chain, s.token.isEof = false → s.stop ≤ here)
  /-- The scan stops where a scan of the chain does. -/
  | token (before : List Span) {after : List Span} {c : Span} (split : chain = before ++ c :: after)
      (passed : ∀ s ∈ before, s.stop ≤ here) (ahead : here < c.stop)
      (boundary : String.Pos.Raw.IsValid source ⟨c.start⟩) (ends : EndsWith here scan c)
      (goes_on : spansFrom source c.stop = after)

/-- What the chain passes first makes no difference. -/
theorem Meets.cons {source : String} {here : Nat} {scan first : Span} {chain : List Span}
    (hpassed : first.stop ≤ here) (h : Meets source here scan chain) :
    Meets source here scan (first :: chain) := by
  cases h with
  | past htoken hstop hchain =>
      refine .past htoken hstop ?_
      intro s hs hs'
      rcases List.mem_cons.1 hs with rfl | hs
      · exact hpassed
      · exact hchain s hs hs'
  | @token before after c hsplit hbefore hahead hboundary hends hgoes =>
      rw [hsplit]
      refine .token (first :: before) rfl ?_ hahead hboundary hends hgoes
      rw [List.forall_mem_cons]
      exact ⟨hpassed, hbefore⟩

/-! ### The next token of a chain -/

section Next

variable {ws gap cs : List Char} {c : Char}

/-- The scan of the token after some blanks. -/
def Span.first (ws gap : List Char) (c : Char) (cs : List Char) : Span :=
  ⟨size ws, size (ws ++ gap), size (ws ++ gap ++ c :: (ofChar c).run cs), Token.first c cs⟩

theorem Span.length_first (ws gap : List Char) (c : Char) (cs : List Char) :
    (first ws gap c cs).start + (first ws gap c cs).token.literal.utf8ByteSize
      = (first ws gap c cs).stop := by
  simp only [first, Token.first, Utf8.utf8ByteSize_ofList, Utf8.size_append]

/-- Where the next token stops, the chain goes on. -/
theorem spansFrom_eq_cons (ws : List Char) (hgap : ∀ b ∈ gap, isBlankChar b = true)
    (hc : isBlankChar c = false) (cs : List Char) :
    spansFrom (.ofList (ws ++ (gap ++ c :: cs))) (size ws) = .first ws gap c cs
      :: spansFrom (.ofList (ws ++ (gap ++ c :: cs))) (Span.first ws gap c cs).stop := by
  have hchain := spansAhead_token ws hgap hc cs
  unfold spansAhead at hchain
  rwa [append_lexeme] at hchain

/-- The blanks before the next token lead to this token. -/
theorem meets_of_blanks {ys zs : List Char} (hgap : ∀ b ∈ ys ++ zs, isBlankChar b = true)
    (hc : isBlankChar c = false) :
    Meets (.ofList (ws ++ ((ys ++ zs) ++ c :: cs))) (size (ws ++ ys))
      (Span.after (.ofList (ws ++ ((ys ++ zs) ++ c :: cs))) (size (ws ++ ys)))
      (spansFrom (.ofList (ws ++ ((ys ++ zs) ++ c :: cs))) (size ws)) := by
  have hzs : ∀ b ∈ zs, isBlankChar b = true := fun b hb => hgap b (List.mem_append_right ys hb)
  have hscan : Span.after (.ofList (ws ++ ((ys ++ zs) ++ c :: cs))) (size (ws ++ ys))
      = { Span.first ws (ys ++ zs) c cs with origin := size (ws ++ ys) } := by
    have hafter := @Span.after_gap (ws ++ ys) zs cs c hzs hc
    simp only [List.append_assoc] at hafter ⊢
    simp only [hafter, Span.first, List.append_assoc]
  rw [hscan]
  refine .token [] (spansFrom_eq_cons ws hgap hc cs) (by simp) ?_ ?_ ?_ rfl
  · have hpos := c.utf8Size_pos
    simp only [Span.first, Utf8.size_append, Utf8.size_cons]
    omega
  · rw [isValid_iff_size]
    exact ⟨ws ++ (ys ++ zs), c :: cs, by simp, rfl⟩
  · refine ⟨Token.isEof_first c cs, rfl, Span.length_first .., ?_, ⟨"", by simp⟩, .inl rfl⟩
    simp [Span.first, Token.first]

variable {bs ds : List Char} {d : Char}

/-- From one of its characters on, a run is a token of the same class, and stops where it did. -/
theorem ByteClass.run_inside (hrun : (ofChar c).run cs = bs ++ d :: ds) :
    ofChar d = ofChar c ∧ cs = bs ++ d :: (ds ++ (ofChar c).pastRun cs)
      ∧ (ofChar d).run (ds ++ (ofChar c).pastRun cs) = ds := by
  have hmem : d ∈ (ofChar c).run cs := by
    rw [hrun]
    simp
  have hclass : ofChar d = ofChar c := ofChar_of_mem_run hmem
  have hsuffix : (ofChar c).run cs = (bs ++ [d]) ++ ds := by simpa using hrun
  have hsplit := (ofChar c).run_append_pastRun cs
  rw [hrun, List.append_assoc, List.cons_append] at hsplit
  refine ⟨hclass, hsplit.symm, ?_⟩
  rw [hclass]
  exact (run_of_suffix hsuffix).1

/-- A scan called inside the next token reads what is left of it. -/
theorem Span.after_inside (ws gap : List Char) (hc : isBlankChar c = false)
    (hrun : (ofChar c).run cs = bs ++ d :: ds) :
    Span.after (.ofList (ws ++ (gap ++ c :: cs))) (size (ws ++ (gap ++ c :: bs)))
      = ⟨size (ws ++ (gap ++ c :: bs)), size (ws ++ (gap ++ c :: bs)), (first ws gap c cs).stop,
          Token.first d (ds ++ (ofChar c).pastRun cs)⟩ := by
  obtain ⟨hclass, hcs, hleft⟩ := ByteClass.run_inside hrun
  have hd : isBlankChar d = false := by
    rw [Bool.eq_false_iff, ne_eq, isBlankChar_iff, hclass, ← isBlankChar_iff, hc]
    simp
  have hafter := @Span.after_gap (ws ++ (gap ++ c :: bs)) [] (ds ++ (ofChar c).pastRun cs) d
    (by simp) hd
  have hsource : ws ++ (gap ++ c :: bs) ++ ([] ++ d :: (ds ++ (ofChar c).pastRun cs))
      = ws ++ (gap ++ c :: cs) := by
    conv_rhs => rw [hcs]
    simp
  rw [hsource, hleft] at hafter
  rw [hafter, first, hrun]
  simp

/-- The inside of the next token leads to what is left of it. -/
theorem meets_of_run (hgap : ∀ b ∈ gap, isBlankChar b = true) (hc : isBlankChar c = false)
    (hrun : (ofChar c).run cs = bs ++ d :: ds) :
    Meets (.ofList (ws ++ (gap ++ c :: cs))) (size (ws ++ (gap ++ c :: bs)))
      (Span.after (.ofList (ws ++ (gap ++ c :: cs))) (size (ws ++ (gap ++ c :: bs))))
      (spansFrom (.ofList (ws ++ (gap ++ c :: cs))) (size ws)) := by
  have hleft := (ByteClass.run_inside hrun).2.2
  have hliteral : (Span.first ws gap c cs).token.literal
      = .ofList (c :: bs) ++ (Token.first d (ds ++ (ofChar c).pastRun cs)).literal := by
    simp only [Span.first, Token.first, hrun, hleft, ← String.ofList_append, List.cons_append]
  have hbehind : (Span.first ws gap c cs).start < size (ws ++ (gap ++ c :: bs)) := by
    have hpos := c.utf8Size_pos
    simp only [Span.first, Utf8.size_append, Utf8.size_cons]
    omega
  have hahead : size (ws ++ (gap ++ c :: bs)) < (Span.first ws gap c cs).stop := by
    have hpos := d.utf8Size_pos
    simp only [Span.first, hrun, Utf8.size_append, Utf8.size_cons]
    omega
  rw [Span.after_inside ws gap hc hrun]
  refine .token [] (spansFrom_eq_cons ws hgap hc cs) (by simp) hahead ?_ ?_ rfl
  · rw [isValid_iff_size]
    exact ⟨ws ++ gap, c :: cs, by simp, rfl⟩
  · refine ⟨Token.isEof_first c cs, rfl, Span.length_first .., ?_, ⟨_, hliteral⟩,
      .inr ⟨hbehind, hahead⟩⟩
    simp [Token.first]

end Next

/-- **A scan from any place between two characters meets the chain.** -/
theorem meets_spansFrom (ws ys vs : List Char) :
    Meets (.ofList (ws ++ (ys ++ vs))) (size (ws ++ ys))
      (Span.after (.ofList (ws ++ (ys ++ vs))) (size (ws ++ ys)))
      (spansFrom (.ofList (ws ++ (ys ++ vs))) (size ws)) := by
  generalize htext : ys ++ vs = text
  induction text using scan_induction generalizing ws ys vs with
  | blanks gap hgap =>
      subst htext
      have hvs : ∀ b ∈ vs, isBlankChar b = true := fun b hb => hgap b (List.mem_append_right ys hb)
      have hscan := @Span.after_blanks (ws ++ ys) vs hvs
      have hchain := spansAhead_blanks ws hgap
      unfold spansAhead at hchain
      rw [List.append_assoc] at hscan
      rw [hscan, hchain]
      refine .past rfl (Utf8.utf8ByteSize_ofList _).symm ?_
      intro s hs hs'
      rw [List.mem_singleton.1 hs] at hs'
      cases hs'
  | token gap c cs hgap hc ih =>
      have hbeyond : ∀ zs, ys = gap ++ c :: (ofChar c).run cs ++ zs →
          (ofChar c).pastRun cs = zs ++ vs →
          Meets (.ofList (ws ++ (gap ++ c :: cs))) (size (ws ++ ys))
            (Span.after (.ofList (ws ++ (gap ++ c :: cs))) (size (ws ++ ys)))
            (spansFrom (.ofList (ws ++ (gap ++ c :: cs))) (size ws)) := by
        intro zs hys hzs
        have hrest := ih (ws ++ gap ++ c :: (ofChar c).run cs) zs vs hzs.symm
        have hplace : ws ++ gap ++ c :: (ofChar c).run cs ++ zs = ws ++ ys := by simp [hys]
        rw [append_lexeme, hplace] at hrest
        rw [spansFrom_eq_cons ws hgap hc cs]
        refine hrest.cons ?_
        rw [Span.first, hys]
        simp only [Utf8.size_append]
        omega
      rcases List.append_eq_append_iff.1 htext with ⟨zs, rfl, rfl⟩ | ⟨bs, rfl, hbs⟩
      · exact meets_of_blanks hgap hc
      · cases bs with
        | nil =>
            have hmeets := @meets_of_blanks ws cs c gap [] (by simpa using hgap) hc
            simpa using hmeets
        | cons b bs =>
            obtain ⟨rfl, hcs⟩ := List.cons.inj hbs
            rw [← (ofChar c).run_append_pastRun cs] at hcs
            rcases List.append_eq_append_iff.1 hcs with ⟨zs, rfl, hzs⟩ | ⟨ds, hrun, hds⟩
            · exact hbeyond zs (by simp) hzs
            · cases ds with
              | nil => exact hbeyond [] (by simp [hrun]) hds.symm
              | cons d ds => exact meets_of_run hgap hc hrun

/-! ### From any offset -/

/-- A scan reads from where its cursor is put. -/
theorem Span.after_of_ofOffset {us vs : List Char} {pos : Nat}
    (h : Cursor.ofOffset (.ofList (us ++ vs)) pos = .seam us vs) :
    Span.after (.ofList (us ++ vs)) pos
      = { Span.after (.ofList (us ++ vs)) (size us) with origin := pos } := by
  unfold Span.after
  rw [h, Cursor.ofOffset_seam]
  dsimp only
  split <;> rfl

/-- A scan does not tell offsets apart that have the same boundary. -/
theorem Span.after_boundary (source : String) (pos : Nat) :
    ∃ us vs, source = .ofList (us ++ vs) ∧ FirstBoundary source pos (size us)
      ∧ Span.after source pos = { Span.after source (size us) with origin := pos } := by
  obtain ⟨cs, rfl⟩ := source.exists_eq_ofList
  obtain ⟨us, vs, rfl, hseam, hfirst⟩ := Cursor.exists_ofOffset_eq_seam cs pos
  exact ⟨us, vs, rfl, hfirst, Span.after_of_ofOffset hseam⟩

/-- No scan goes beyond the end. -/
theorem Span.stop_after_le (source : String) (pos : Nat) :
    (Span.after source pos).stop ≤ source.utf8ByteSize := by
  obtain ⟨us, vs, rfl, -, hscan⟩ := Span.after_boundary source pos
  rw [hscan, Utf8.utf8ByteSize_ofList]
  induction vs using scan_induction with
  | blanks gap hgap => rw [Span.after_blanks hgap]
  | token gap c cs hgap hc _ =>
      rw [Span.after_gap hgap hc, ← append_lexeme, Utf8.size_append (us ++ gap ++ _)]
      exact Nat.le_add_right (size (us ++ gap ++ c :: (ofChar c).run cs)) _

/-- **The chain of scans meets the scan from any offset.** -/
theorem meets_spans (source : String) (pos : Nat) :
    ∃ boundary, FirstBoundary source pos boundary
      ∧ Meets source boundary (Span.after source pos) (spans source) := by
  obtain ⟨us, vs, rfl, hfirst, hscan⟩ := Span.after_boundary source pos
  refine ⟨size us, hfirst, ?_⟩
  rw [hscan]
  cases meets_spansFrom [] us vs with
  | past htoken hstop hpassed => exact .past htoken hstop hpassed
  | token before hsplit hpassed hahead hboundary hends hgoes =>
      refine .token before hsplit hpassed hahead hboundary ?_ hgoes
      exact ⟨hends.not_end, hends.stop_eq, hends.length_eq, hends.literal_ne, hends.suffix,
        hends.token_eq⟩

/-- Inside a token, between characters or not, the offset is what its boundary is. -/
theorem EndsWith.of_boundary {source : String} {pos boundary : Nat} {scan c : Span}
    (hfirst : FirstBoundary source pos boundary)
    (hvalid : String.Pos.Raw.IsValid source ⟨c.start⟩) (hle : c.stop ≤ source.utf8ByteSize)
    (h : EndsWith boundary scan c) : EndsWith pos scan c := by
  refine ⟨h.not_end, h.stop_eq, h.length_eq, h.literal_ne, h.suffix, ?_⟩
  refine h.token_eq.imp id fun hinside => ?_
  obtain ⟨hlo, hhi⟩ := hinside
  have hmin := hfirst.1.1
  -- The token begins at a boundary, so the offset would have had it were it not beyond it.
  have hstart : ¬ min pos source.utf8ByteSize ≤ c.start := by
    intro hnot
    exact absurd (hfirst.2 ⟨hnot, hvalid⟩) (Nat.not_le.2 hlo)
  omega

/-- A scan stops at the first place beyond its boundary where the chain does. -/
theorem Meets.stop_le {source : String} {here : Nat} {scan s : Span} {chain : List Span}
    (h : Meets source here scan chain) (hs : s ∈ chain) (hs' : s.token.isEof = false)
    (hhere : here < s.stop) : scan.stop ≤ s.stop := by
  cases h with
  | past _ _ hpassed => exact absurd (hpassed s hs hs') (Nat.not_le.2 hhere)
  | @token before after c hsplit hpassed _ _ hends hgoes =>
      rw [hsplit] at hs
      rw [← hends.stop_eq]
      rcases List.mem_append.1 hs with hs | hs
      · exact absurd (hpassed s hs) (Nat.not_le.2 hhere)
      · rcases List.mem_cons.1 hs with rfl | hs
        · exact Nat.le_refl _
        · rw [← hgoes] at hs
          exact Nat.le_of_lt (stop_lt_of_mem_spansFrom s hs hs')

/-- A scan called farther on does not stop earlier. -/
theorem stop_after_mono (source : String) {pos pos' : Nat} (hle : pos ≤ pos') :
    (Span.after source pos).stop ≤ (Span.after source pos').stop := by
  obtain ⟨b, hfirst, hmeets⟩ := meets_spans source pos
  obtain ⟨b', hfirst', hmeets'⟩ := meets_spans source pos'
  have hb := hfirst.mono hle hfirst'
  cases hmeets' with
  | past _ hstop _ =>
      rw [hstop]
      exact Span.stop_after_le source pos
  | token _ hsplit _ hahead _ hends _ =>
      rw [← hends.stop_eq]
      exact hmeets.stop_le (by rw [hsplit]; simp) hends.not_end (by omega)

/-- **A scan from any offset joins the chain after one token.**  Unless it reads the end, there
is one token of the chain that stops where it stops; it has read this token or, called inside
of it, an end of it, and from there the chain goes on.  If it reads the end, no token of the
chain is left.  The end, which has no text, is a scan of the chain and not one of its tokens. -/
theorem scan_rejoins_chain (source : String) (pos : Nat) :
    ((Span.after source pos).token.isEof = false → ∃ before c after,
        spans source = before ++ c :: after
        ∧ EndsWith pos (Span.after source pos) c
        ∧ (∀ s ∈ before ++ after, s.token.isEof = false → s.stop ≠ c.stop)
        ∧ spansFrom source (Span.after source pos).stop = after)
    ∧ ((Span.after source pos).token.isEof = true →
        (Span.after source pos).token = .eof
        ∧ (Span.after source pos).stop = source.utf8ByteSize
        ∧ ∃ boundary, FirstBoundary source pos boundary
          ∧ ∀ s ∈ spans source, s.token.isEof = false → s.stop ≤ boundary)
    ∧ ∀ pos', pos ≤ pos' → (Span.after source pos).stop ≤ (Span.after source pos').stop := by
  obtain ⟨b, hfirst, hmeets⟩ := meets_spans source pos
  refine ⟨?_, ?_, fun _ => stop_after_mono source⟩
  · intro htoken
    cases hmeets with
    | past hend _ _ =>
        rw [hend] at htoken
        cases htoken
    | @token before after c hsplit hpassed hahead hvalid hends hgoes =>
        have hle : c.stop ≤ source.utf8ByteSize := by
          rw [hends.stop_eq]
          exact Span.stop_after_le source pos
        refine ⟨before, c, after, hsplit, hends.of_boundary hfirst hvalid hle, ?_, ?_⟩
        · intro s hs hs'
          rcases List.mem_append.1 hs with hs | hs
          · exact Nat.ne_of_lt (Nat.lt_of_le_of_lt (hpassed s hs) hahead)
          · rw [← hgoes] at hs
            exact Nat.ne_of_gt (stop_lt_of_mem_spansFrom s hs hs')
        · rw [← hends.stop_eq, hgoes]
  · intro hend
    cases hmeets with
    | past htoken hstop hpassed => exact ⟨htoken, hstop, b, hfirst, hpassed⟩
    | token _ _ _ _ _ hends _ =>
        have hliteral := hends.literal_ne
        rw [Span.token_after_of_isEof hend] at hliteral
        exact absurd rfl hliteral

/-- A name that is entered where a reserved word is left of it. -/
example : (Span.after "xif" 1).token = ⟨.keyword .ifWord, "if"⟩ := by
  cbv

end MonkeyTokens
