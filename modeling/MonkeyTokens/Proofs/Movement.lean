/-
Moving a cursor by hand.

A cursor can be moved byte by byte, character by character, or past a run of bytes with a
property.  Whoever moves it in these ways never gets back, and never beyond the end.

Not every movement keeps the cursor between characters.  From a boundary a step over a
character ends on one, a step of one byte does so if and only if the byte is a character of
its own (`onBoundary_stepByte_iff`), and a run does so if no byte beyond ASCII belongs to it.
A list of such movements is careful (`CarefulPath`), and where movements are careful, all
places that they lead to are boundaries, so that the text between any two of them can be cut
out (`cutsOut`).
-/
import Mathlib.Data.List.TakeDrop
import MonkeyTokens.Proofs.SafeCuts
import MonkeyTokens.Proofs.Text.Charwise

namespace MonkeyTokens

open Utf8 (lead size slice)

/-- The ways to move a cursor. -/
inductive Movement where
  /-- One byte further. -/
  | byte
  /-- Past the character that begins at the cursor. -/
  | char
  /-- Past a run of bytes that satisfy `p`. -/
  | run (p : UInt8 → Bool)

/-- The cursor after a movement. -/
def Movement.apply (c : Cursor) : Movement → Cursor
  | .byte => c.stepByte
  | .char => c.stepChar
  | .run p => c.skipWhile p

namespace Cursor

/-- The cursors that movements lead to one after the other, from the one before the first. -/
def path (c : Cursor) : List Movement → List Cursor
  | [] => [c]
  | m :: ms => c :: (m.apply c).path ms

/-- The cursors that are made for a text. -/
inductive MadeFor (source : String) : Cursor → Prop
  | beginning : MadeFor source (ofText source)
  | offset (pos : Nat) : MadeFor source (ofOffset source pos)

/-! ### Forwards, and not beyond the end -/

/-- Can the cursor `d` be where `c` has been moved to? -/
structure LeadsTo (c d : Cursor) : Prop where
  source_eq : d.source = c.source
  pos_le : c.pos ≤ d.pos
  le_end : c.pos ≤ c.source.utf8ByteSize → d.pos ≤ c.source.utf8ByteSize

namespace LeadsTo

theorem refl (c : Cursor) : LeadsTo c c :=
  ⟨rfl, Nat.le_refl _, id⟩

theorem trans {c d e : Cursor} (h : LeadsTo c d) (h' : LeadsTo d e) : LeadsTo c e := by
  refine ⟨h'.source_eq.trans h.source_eq, Nat.le_trans h.pos_le h'.pos_le, ?_⟩
  intro hc
  have hend := h'.le_end
  rw [h.source_eq] at hend
  exact hend (h.le_end hc)

/-- The end is never left. -/
theorem atEnd {c d : Cursor} (h : LeadsTo c d) (hc : c.atEnd = true) : d.atEnd = true := by
  rw [Cursor.atEnd, decide_eq_true_eq] at hc ⊢
  rw [h.source_eq]
  exact Nat.le_trans hc h.pos_le

end LeadsTo

/-- No run reaches beyond the end. -/
theorem pos_skipWhile_le (p : UInt8 → Bool) (c : Cursor) (h : c.pos ≤ c.source.utf8ByteSize) :
    (c.skipWhile p).pos ≤ c.source.utf8ByteSize := by
  fun_induction skipWhile p c with
  | case1 c hrun ih => exact ih hrun.1
  | case2 c hrun => exact h

/-- **One movement** leads forwards and not beyond the end. -/
theorem leadsTo_apply (c : Cursor) (m : Movement) : LeadsTo c (m.apply c) := by
  cases m with
  | byte =>
      cases hend : c.atEnd with
      | true => simpa [Movement.apply, stepByte, hend] using LeadsTo.refl c
      | false =>
          refine ⟨source_stepByte c, Nat.le_of_lt (pos_lt_pos_stepByte hend), fun _ => ?_⟩
          simpa [Movement.apply, stepByte, hend] using atEnd_eq_false_iff.1 hend
  | char =>
      cases hend : c.atEnd with
      | true => simpa [Movement.apply, stepChar, hend] using LeadsTo.refl c
      | false =>
          refine ⟨source_stepChar c, Nat.le_of_lt (pos_lt_pos_stepChar hend), fun _ => ?_⟩
          simp [Movement.apply, stepChar, hend]
  | run p => exact ⟨source_skipWhile p c, pos_le_pos_skipWhile p c, pos_skipWhile_le p c⟩

theorem leadsTo_of_mem_path {c d : Cursor} {ms : List Movement} (h : d ∈ c.path ms) :
    LeadsTo c d := by
  induction ms generalizing c with
  | nil =>
      rw [List.mem_singleton.1 h]
      exact .refl c
  | cons m ms ih =>
      rcases List.mem_cons.1 h with rfl | h
      · exact .refl d
      · exact (leadsTo_apply c m).trans (ih h)

/-- **Any movements** lead forwards and not beyond the end. -/
theorem pairwise_path (c : Cursor) (ms : List Movement) : (c.path ms).Pairwise LeadsTo := by
  induction ms generalizing c with
  | nil => exact List.pairwise_singleton ..
  | cons m ms ih =>
      refine List.pairwise_cons.2 ⟨?_, ih (m.apply c)⟩
      intro d hd
      exact (leadsTo_apply c m).trans (leadsTo_of_mem_path hd)

/-! ### From boundary to boundary -/

theorem OnBoundary.exists_eq_seam {c : Cursor} (h : c.OnBoundary) :
    ∃ us vs, c = seam us vs := by
  obtain ⟨source, pos⟩ := c
  obtain ⟨us, vs, rfl, rfl⟩ := exists_split h
  exact ⟨us, vs, rfl⟩

theorem OnBoundary.pos_le {c : Cursor} (h : c.OnBoundary) : c.pos ≤ c.source.utf8ByteSize := by
  obtain ⟨us, vs, rfl⟩ := h.exists_eq_seam
  simp

/-- Cursors are made on boundaries. -/
theorem MadeFor.onBoundary {source : String} {c : Cursor} (h : MadeFor source c) :
    c.source = source ∧ c.OnBoundary := by
  cases h with
  | beginning => exact ⟨rfl, String.Pos.Raw.isValid_zero⟩
  | offset pos =>
      refine ⟨source_ofOffset source pos, ?_⟩
      rw [OnBoundary, source_ofOffset]
      exact (firstBoundary_ofOffset source pos).1.2

theorem onBoundary_stepChar {c : Cursor} (h : c.OnBoundary) : c.stepChar.OnBoundary := by
  obtain ⟨us, vs, rfl⟩ := h.exists_eq_seam
  cases vs with
  | nil => rwa [stepChar_of_atEnd (by simp)]
  | cons d vs =>
      rw [stepChar_seam]
      exact onBoundary_seam ..

/-- A step of one byte ends on a boundary where there is no step, and where the byte is a
character of its own. -/
theorem onBoundary_stepByte_iff {c : Cursor} (h : c.OnBoundary) :
    c.stepByte.OnBoundary ↔ c.atEnd = true ∨ c.current < 0x80 := by
  obtain ⟨us, vs, rfl⟩ := h.exists_eq_seam
  cases vs with
  | nil =>
      refine iff_of_true ?_ (.inl (by simp))
      rwa [stepByte, if_pos (by simp)]
  | cons d vs =>
      rw [current_seam]
      by_cases hd : lead d < 0x80
      · refine iff_of_true ?_ (.inr hd)
        rw [stepByte_seam us vs hd]
        exact onBoundary_seam ..
      · refine iff_of_false ?_ (by simp [hd])
        have hwidth : d.utf8Size ≠ 1 := mt Utf8.lead_lt_iff.2 hd
        have hpos := d.utf8Size_pos
        rw [stepByte, if_neg (by simp)]
        show ¬ String.Pos.Raw.IsValid (.ofList (us ++ d :: vs)) ⟨size us + 1⟩
        exact not_isValid_inside (Nat.lt_succ_self _) (by omega)

theorem onBoundary_skipWhile {c : Cursor} {p : UInt8 → Bool} (hp : ∀ b, 0x80 ≤ b → p b = false)
    (h : c.OnBoundary) : (c.skipWhile p).OnBoundary := by
  obtain ⟨us, vs, rfl⟩ := h.exists_eq_seam
  have hascii : ∀ b, p b = true → b < 0x80 := by
    intro b hb
    by_contra hnot
    rw [hp b (UInt8.not_lt.1 hnot)] at hb
    cases hb
  rw [skipWhile_seam hascii]
  exact onBoundary_seam ..

/-- Is the movement made over whole characters only, where the cursor stands? -/
def Careful (c : Cursor) : Movement → Prop
  | .byte => c.atEnd = true ∨ c.current < 0x80
  | .char => True
  | .run p => ∀ b, 0x80 ≤ b → p b = false

/-- Is each movement careful where the ones before it have led to? -/
def CarefulPath (c : Cursor) : List Movement → Prop
  | [] => True
  | m :: ms => c.Careful m ∧ (m.apply c).CarefulPath ms

theorem onBoundary_apply {c : Cursor} {m : Movement} (hm : c.Careful m) (h : c.OnBoundary) :
    (m.apply c).OnBoundary := by
  cases m with
  | byte => exact (onBoundary_stepByte_iff h).2 hm
  | char => exact onBoundary_stepChar h
  | run p => exact onBoundary_skipWhile hm h

/-- Careful movements lead from boundary to boundary. -/
theorem onBoundary_of_mem_path {c : Cursor} {ms : List Movement} (hms : c.CarefulPath ms)
    (h : c.OnBoundary) : ∀ d ∈ c.path ms, d.OnBoundary := by
  induction ms generalizing c with
  | nil =>
      rw [path, List.forall_mem_singleton]
      exact h
  | cons m ms ih =>
      rw [path, List.forall_mem_cons]
      exact ⟨h, ih hms.2 (onBoundary_apply hms.1 h)⟩

end Cursor

/-! ### Cutting out between boundaries -/

theorem Utf8.slice_append_slice (bs : List UInt8) {start mid stop : Nat} (h : start ≤ mid)
    (h' : mid ≤ stop) : slice bs start mid ++ slice bs mid stop = slice bs start stop := by
  have hmid : bs.take mid = (bs.take stop).take mid := by rw [List.take_take, Nat.min_eq_left h']
  have happend := List.drop_take_append_drop (bs.take stop) start (mid - start)
  rw [Nat.add_sub_cancel' h] at happend
  rw [slice, slice, slice, hmid, List.drop_take]
  exact happend

namespace Cursor

/-- What is cut out from one offset to another is the text there, all of it, and there is no
error. -/
structure CutsOut (c : Cursor) (start stop : Nat) : Prop where
  ok : c.cut start stop = .ok (c.between start stop)
  bytes : Utf8.bytes (c.between start stop) = slice (Utf8.bytes c.source) start stop
  nonempty : start < stop → c.between start stop ≠ ""

section Cutting

variable {c : Cursor} {start mid stop : Nat}

theorem cutsOut (hstart : String.Pos.Raw.IsValid c.source ⟨start⟩)
    (hstop : String.Pos.Raw.IsValid c.source ⟨stop⟩) (hle : start ≤ stop) :
    c.CutsOut start stop := by
  have hbytes := bytes_between hstart hstop
  refine ⟨by rw [cut, if_neg (Nat.not_lt.2 hle)], hbytes, ?_⟩
  intro hlt hempty
  have hend : stop ≤ (Utf8.bytes c.source).length := by
    rw [Utf8.length_bytes]
    exact OnBoundary.pos_le (c := ⟨c.source, stop⟩) hstop
  have hlen := length_slice start hend
  rw [← hbytes, hempty, Utf8.bytes_empty, List.length_nil] at hlen
  omega

/-- Texts that are cut out next to each other make up the text that is cut out at once. -/
theorem between_append_between (hstart : String.Pos.Raw.IsValid c.source ⟨start⟩)
    (hmid : String.Pos.Raw.IsValid c.source ⟨mid⟩) (hstop : String.Pos.Raw.IsValid c.source ⟨stop⟩)
    (hle : start ≤ mid) (hle' : mid ≤ stop) :
    c.between start mid ++ c.between mid stop = c.between start stop := by
  apply Utf8.bytes_injective
  rw [Utf8.bytes_append, bytes_between hstart hmid, bytes_between hmid hstop,
    bytes_between hstart hstop, Utf8.slice_append_slice _ hle hle']

end Cutting

/-- **What holds wherever a cursor is moved, and what takes care.**  A cursor that is made for
a text is never moved back nor beyond the end, and stays at the end.  From a boundary a step
over a character leads to one, a step of one byte does where it is no step or one over an ASCII
byte, and a run of ASCII bytes does.  So careful movements lead to boundaries only; the text
between any two of these is cut out whole, and texts next to each other make up one. -/
theorem movement_invariant (source : String) :
    (∀ c, MadeFor source c → ∀ ms,
        (∀ d ∈ c.path ms, d.source = source ∧ d.pos ≤ source.utf8ByteSize)
        ∧ (c.path ms).Pairwise fun d e => d.pos ≤ e.pos ∧ (d.atEnd = true → e.atEnd = true))
      ∧ (∀ c : Cursor, c.source = source → c.OnBoundary →
          c.stepChar.OnBoundary
          ∧ (c.stepByte.OnBoundary ↔ c.atEnd = true ∨ c.current < 0x80)
          ∧ ∀ p, (∀ b, 0x80 ≤ b → p b = false) → (c.skipWhile p).OnBoundary)
      ∧ ∀ c, MadeFor source c → ∀ ms, c.CarefulPath ms →
          (∀ d ∈ c.path ms, d.OnBoundary)
          ∧ ∀ cutter : Cursor, cutter.source = source →
            ∀ d ∈ c.path ms, ∀ e ∈ c.path ms, d.pos ≤ e.pos →
              cutter.CutsOut d.pos e.pos
              ∧ ∀ f ∈ c.path ms, e.pos ≤ f.pos →
                cutter.between d.pos e.pos ++ cutter.between e.pos f.pos
                  = cutter.between d.pos f.pos := by
  refine ⟨?_, ?_, ?_⟩
  · intro c hc ms
    obtain ⟨rfl, hboundary⟩ := hc.onBoundary
    refine ⟨?_, (pairwise_path c ms).imp fun h => ⟨h.pos_le, h.atEnd⟩⟩
    intro d hd
    have hleads := leadsTo_of_mem_path hd
    exact ⟨hleads.source_eq, hleads.le_end hboundary.pos_le⟩
  · intro c _ hc
    exact ⟨onBoundary_stepChar hc, onBoundary_stepByte_iff hc, fun _ hp =>
      onBoundary_skipWhile hp hc⟩
  · intro c hc ms hms
    obtain ⟨hsource, hboundary⟩ := hc.onBoundary
    have hpath := onBoundary_of_mem_path hms hboundary
    refine ⟨hpath, ?_⟩
    intro cutter hcutter
    have hvalid : ∀ d ∈ c.path ms, String.Pos.Raw.IsValid cutter.source ⟨d.pos⟩ := by
      intro d hd
      have hd' := hpath d hd
      rwa [OnBoundary, (leadsTo_of_mem_path hd).source_eq, hsource, ← hcutter] at hd'
    intro d hd e he hle
    refine ⟨cutsOut (hvalid d hd) (hvalid e he) hle, ?_⟩
    intro f hf hle'
    exact between_append_between (hvalid d hd) (hvalid e he) (hvalid f hf) hle hle'

/-- A step of one byte may end inside a character. -/
example : ¬ (ofText "é").stepByte.OnBoundary := by
  show ¬ String.Pos.Raw.IsValid "é" ⟨1⟩
  decide

end Cursor

end MonkeyTokens
