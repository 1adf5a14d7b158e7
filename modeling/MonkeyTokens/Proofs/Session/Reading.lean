/-
Where the reading of a stream fails.

A stream is read line by line, so complete lines at its beginning are read as they are,
whatever comes after them (`lines_append`).  A failure therefore has a place: it comes
after some complete lines that are text, and is told by the bytes that follow these.

`NextFails` says how the very next reading can fail, and `FailsAfter` puts complete lines
before it.  A stream that is not text to its end, or that breaks, fails in exactly one way.
-/
import MonkeyTokens.Proofs.Session.Lines

namespace MonkeyTokens

open Utf8 (encode)

/-! ### Texts of complete lines -/

/-- A text of complete lines: it is empty or ends with a line feed. -/
def LineEnded (text : String) : Prop :=
  ∀ c ∈ text.toList.getLast?, c = '\n'

namespace LineEnded

theorem empty : LineEnded "" := by
  intro c hc
  simp at hc

theorem append {s t : String} (hs : LineEnded s) (ht : LineEnded t) : LineEnded (s ++ t) := by
  intro c hc
  rw [String.toList_append, List.getLast?_append] at hc
  cases hlast : t.toList.getLast? with
  | none =>
      rw [hlast, Option.none_or] at hc
      exact hs c hc
  | some d =>
      rw [hlast, Option.some_or] at hc
      exact ht c (by rwa [hlast])

/-- Such a text has no tail after its last line feed. -/
theorem exists_marked {cs : List Char} (h : LineEnded (.ofList cs)) :
    ∃ bodies, Marked '\n' cs bodies [] := by
  obtain ⟨bodies, tail, hmarked⟩ := MonkeyTokens.exists_marked '\n' cs
  rcases List.eq_nil_or_concat tail with rfl | ⟨tail, c, rfl⟩
  · exact ⟨bodies, hmarked⟩
  · have hlast : cs.getLast? = some c := by
      rw [hmarked.whole_eq]
      simp
    have hc : c = '\n' := by
      refine h c ?_
      rw [String.toList_ofList, hlast]
      rfl
    refine absurd ?_ hmarked.not_mem_tail
    simp [hc]

/-- A text whose bytes end with a line feed. -/
theorem of_bytes {text : String} {body : List UInt8}
    (h : Utf8.bytes text = body ++ [Input.lineFeed]) : LineEnded text := by
  intro c hc
  obtain ⟨cs, hcs⟩ := List.getLast?_eq_some_iff.1 hc
  rw [Utf8.bytes_eq_encode, hcs, Utf8.encode_append] at h
  -- The bytes of the last character are not empty, so the line feed is one of them.
  have hmem : Input.lineFeed ∈ encode [c] := by
    have hlast := congrArg List.getLast? h
    have hne : encode [c] ≠ [] := by simp
    rw [List.getLast?_append, List.getLast?_eq_some_getLast hne, Option.some_or,
      List.getLast?_concat, Option.some.injEq] at hlast
    rw [← hlast]
    exact List.getLast_mem hne
  have hc := lineFeed_mem_encode_iff.1 hmem
  simpa [eq_comm] using hc

end LineEnded

namespace Input

/-- The lines of complete lines come before those of what follows, whether or not that is text. -/
theorem byteLines_append {x : String} (hx : LineEnded x) (bs : List UInt8)
    (fault : Option String) :
    byteLines ⟨Utf8.bytes x ++ bs, fault⟩
      = (textLines x).map Utf8.bytes ++ byteLines ⟨bs, fault⟩ := by
  obtain ⟨cs, rfl⟩ := x.exists_eq_ofList
  obtain ⟨bodies, hmarked⟩ := hx.exists_marked
  obtain ⟨bodies', tail, hrest⟩ := exists_marked lineFeed bs
  have hbytes := hmarked.encode
  have hwhole := hbytes.append hrest
  rw [← byteLines_bytes, Utf8.bytes_ofList, byteLines_marked hbytes, byteLines, byteLines,
    cutLines_marked hwhole, cutLines_marked hrest]
  simp only [pieces, Utf8.encode_nil, List.isEmpty_nil, if_true, List.append_nil, List.map_append]
  split <;> simp

/-- **Complete lines at the beginning of a stream are read, and then the rest is.** -/
theorem lines_append {x : String} (hx : LineEnded x) (bs : List UInt8) (fault : Option String) :
    lines ⟨Utf8.bytes x ++ bs, fault⟩
      = (textLines x ++ (lines ⟨bs, fault⟩).1, (lines ⟨bs, fault⟩).2) := by
  rw [lines, byteLines_append hx, decodeLines_append]
  rfl

/-! ### Failures -/

/-- How the next reading of a stream can fail. -/
inductive NextFails : Input → Failure → Prop
  /-- There is a complete line, and it is no text. -/
  | line {body rest : List UInt8} {fault : Option String} (one_line : lineFeed ∉ body)
      (bad : ∀ text, Utf8.bytes text ≠ body ++ [lineFeed]) :
      NextFails ⟨body ++ lineFeed :: rest, fault⟩ undecodable
  /-- There is no complete line, and then the stream breaks, whatever bytes came before. -/
  | broken {tail : List UInt8} {reason : String} (no_line : lineFeed ∉ tail) :
      NextFails ⟨tail, some reason⟩ (.stream reason)
  /-- There is no complete line, and what there is until the end is no text. -/
  | tail {tail : List UInt8} (no_line : lineFeed ∉ tail)
      (bad : ∀ text, Utf8.bytes text ≠ tail) : NextFails ⟨tail, none⟩ undecodable

/-- How the reading of a stream fails, and after which complete lines. -/
structure FailsAfter (input : Input) (before : String) (failure : Failure) : Prop where
  ended : LineEnded before
  next : ∃ rest, input.bytes = Utf8.bytes before ++ rest ∧ NextFails ⟨rest, input.fault⟩ failure

theorem decode?_eq_none {bs : List UInt8} (h : ∀ text, Utf8.bytes text ≠ bs) :
    Utf8.decode? bs = none := by
  rw [Option.eq_none_iff_forall_ne_some]
  intro text htext
  exact h text (Utf8.decode?_eq_some_iff.1 htext)

/-- Then no line is read. -/
theorem NextFails.lines_eq {input : Input} {failure : Failure} (h : NextFails input failure) :
    input.lines = ([], some failure) := by
  cases h with
  | @line body rest fault hbody hbad =>
      have hcut := cutLines_body hbody rest
      obtain ⟨more, hmore⟩ : ∃ more, byteLines ⟨body ++ lineFeed :: rest, fault⟩
          = (body ++ [lineFeed]) :: more := by
        rw [byteLines, hcut]
        dsimp only
        split <;> exact ⟨_, rfl⟩
      rw [lines, hmore, decodeLines, decode?_eq_none hbad]
  | @broken tail reason htail =>
      rw [lines, byteLines, cutLines_tail htail]
      rfl
  | @tail tail htail hbad =>
      have hne : tail ≠ [] := by
        intro hnil
        subst hnil
        exact hbad "" rfl
      rw [lines, byteLines, cutLines_tail htail]
      simp [hne, decodeLines, decode?_eq_none hbad]

namespace FailsAfter

variable {input : Input} {before : String} {failure : Failure}

/-- The complete lines are read, and then the reading fails. -/
theorem lines_eq (h : input.FailsAfter before failure) :
    input.lines = (textLines before, some failure) := by
  obtain ⟨rest, hbytes, hnext⟩ := h.next
  obtain ⟨bytes, fault⟩ := input
  simp only at hbytes hnext
  rw [hbytes, lines_append h.ended, hnext.lines_eq, List.append_nil]

/-- **A stream fails in one way at most.** -/
theorem unique {before' : String} {failure' : Failure} (h : input.FailsAfter before failure)
    (h' : input.FailsAfter before' failure') : before' = before ∧ failure' = failure := by
  have hlines := h'.lines_eq
  rw [h.lines_eq, Prod.mk.injEq, Option.some.injEq] at hlines
  refine ⟨?_, hlines.2.symm⟩
  rw [← join_textLines before', ← hlines.1, join_textLines]

/-- A complete line more at the beginning. -/
theorem line_append {line : String} (hline : LineEnded line) {bs : List UInt8}
    {fault : Option String} (h : FailsAfter ⟨bs, fault⟩ before failure) :
    FailsAfter ⟨Utf8.bytes line ++ bs, fault⟩ (line ++ before) failure := by
  obtain ⟨rest, hbytes, hnext⟩ := h.next
  simp only at hbytes hnext
  refine ⟨hline.append h.ended, rest, ?_, hnext⟩
  rw [Utf8.bytes_append, hbytes, List.append_assoc]

end FailsAfter

/-- The stream does not break, and its bytes are those of a text. -/
def Readable (input : Input) : Prop :=
  input.fault = none ∧ ∃ text, Utf8.bytes text = input.bytes

theorem readable_or_failsAfter_of_marked {bodies : List (List UInt8)} {bs tail : List UInt8}
    (fault : Option String) (h : Marked lineFeed bs bodies tail) :
    Readable ⟨bs, fault⟩ ∨ ∃ before failure, FailsAfter ⟨bs, fault⟩ before failure := by
  induction bodies generalizing bs with
  | nil =>
      have hbs : bs = tail := by simpa using h.whole_eq
      subst hbs
      cases fault with
      | some reason =>
          right
          exact ⟨"", _, LineEnded.empty, bs, rfl, .broken h.not_mem_tail⟩
      | none =>
          by_cases hex : ∃ text, Utf8.bytes text = bs
          · left
            exact ⟨rfl, hex⟩
          · right
            exact ⟨"", _, LineEnded.empty, bs, rfl, .tail h.not_mem_tail (not_exists.1 hex)⟩
  | cons body bodies ih =>
      have hnot : lineFeed ∉ body := h.not_mem_body body (by simp)
      obtain ⟨rest, hrest, hbs⟩ : ∃ rest, Marked lineFeed rest bodies tail
          ∧ bs = body ++ lineFeed :: rest := by
        refine ⟨_, ⟨rfl, fun b hb => h.not_mem_body b (by simp [hb]), h.not_mem_tail⟩, ?_⟩
        rw [h.whole_eq]
        simp
      by_cases hex : ∃ text, Utf8.bytes text = body ++ [lineFeed]
      · obtain ⟨line, hline⟩ := hex
        have hsplit : bs = Utf8.bytes line ++ rest := by
          rw [hbs, hline]
          simp
        rw [hsplit]
        rcases ih hrest with ⟨hfault, text, htext⟩ | ⟨before, failure, hfails⟩
        · left
          refine ⟨hfault, line ++ text, ?_⟩
          rw [Utf8.bytes_append]
          simp only at htext
          rw [htext]
        · right
          exact ⟨_, _, hfails.line_append (.of_bytes hline)⟩
      · right
        rw [hbs]
        exact ⟨"", _, LineEnded.empty, _, rfl, .line hnot (not_exists.1 hex)⟩

/-- **A stream is read to its end, or its reading fails at some place.** -/
theorem readable_or_failsAfter (input : Input) :
    input.Readable ∨ ∃ before failure, input.FailsAfter before failure := by
  obtain ⟨bs, fault⟩ := input
  obtain ⟨bodies, tail, h⟩ := exists_marked lineFeed bs
  exact readable_or_failsAfter_of_marked fault h

/-- Reading fails nowhere in a readable stream, and somewhere in any other. -/
theorem snd_lines_eq_none_iff {input : Input} : input.lines.2 = none ↔ input.Readable := by
  constructor
  · intro hnone
    rcases input.readable_or_failsAfter with hreadable | ⟨before, failure, hfails⟩
    · exact hreadable
    · rw [hfails.lines_eq] at hnone
      cases hnone
  · intro hreadable
    obtain ⟨bytes, fault⟩ := input
    obtain ⟨hfault, text, htext⟩ := hreadable
    simp only at hfault htext
    rw [hfault, ← htext, lines_bytes]

end Input

end MonkeyTokens
