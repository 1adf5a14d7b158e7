/-
The lines of a text.

A session cuts bytes after line feeds and decodes what lies between the cuts.  What it
gets is best said of characters: the lines of the text, each up to and including its
line feed.  The cuts never fall within a character, since a line feed is an ASCII byte.

`Marked` says of characters and of bytes alike where the cuts are, and the two readings
of a text meet there.
-/
import Mathlib.Data.List.SplitBy
import MonkeyTokens.Proofs.Text.Encoding
import MonkeyTokens.Session.Input

namespace MonkeyTokens

open Utf8 (lead size encode)

/-! ### Cutting after a mark -/

/-- A list made of bodies with a mark after each, and of a tail, with no other marks in it. -/
structure Marked {α : Type} (mark : α) (whole : List α) (bodies : List (List α))
    (tail : List α) : Prop where
  whole_eq : whole = (bodies.map (· ++ [mark])).flatten ++ tail
  not_mem_body : ∀ body ∈ bodies, mark ∉ body
  not_mem_tail : mark ∉ tail

/-- The pieces: each body with its mark, and the tail unless it is empty. -/
def pieces {α : Type} (mark : α) (bodies : List (List α)) (tail : List α) : List (List α) :=
  bodies.map (· ++ [mark]) ++ if tail.isEmpty then [] else [tail]

section Marked

variable {α : Type} {mark : α} {bodies : List (List α)} {tail : List α}

theorem exists_marked [DecidableEq α] (mark : α) (whole : List α) :
    ∃ bodies tail, Marked mark whole bodies tail := by
  induction whole with
  | nil => exact ⟨[], [], rfl, by simp, by simp⟩
  | cons a whole ih =>
      obtain ⟨bodies, tail, rfl, hbodies, htail⟩ := ih
      by_cases ha : a = mark
      · refine ⟨[] :: bodies, tail, by simp [ha], ?_, htail⟩
        rw [List.forall_mem_cons]
        exact ⟨by simp, hbodies⟩
      · have hnot : ∀ {l : List α}, mark ∉ l → mark ∉ a :: l := by
          intro l hl hmem
          rcases List.mem_cons.1 hmem with h | h
          · exact ha h.symm
          · exact hl h
        cases bodies with
        | nil => exact ⟨[], a :: tail, by simp, by simp, hnot htail⟩
        | cons body bodies =>
            rw [List.forall_mem_cons] at hbodies
            refine ⟨(a :: body) :: bodies, tail, by simp, ?_, htail⟩
            rw [List.forall_mem_cons]
            exact ⟨hnot hbodies.1, hbodies.2⟩

/-- Bodies without a tail go on with the bodies and the tail of what comes after. -/
theorem Marked.append {us vs : List α} {bodies' : List (List α)} {tail' : List α}
    (h : Marked mark us bodies []) (h' : Marked mark vs bodies' tail') :
    Marked mark (us ++ vs) (bodies ++ bodies') tail' := by
  refine ⟨?_, ?_, h'.not_mem_tail⟩
  · rw [h.whole_eq, h'.whole_eq]
    simp
  · intro body hbody
    rcases List.mem_append.1 hbody with hbody | hbody
    · exact h.not_mem_body body hbody
    · exact h'.not_mem_body body hbody

private theorem splitBy_unmarked [DecidableEq α] {body : List α} (h : mark ∉ body) (a : α) :
    (body ++ [a]).splitBy (fun b _ => b ≠ mark) = [body ++ [a]] := by
  apply List.splitBy_of_isChain (by simp)
  induction body with
  | nil => simp
  | cons b body ih =>
      rw [List.mem_cons, not_or] at h
      have hb : b ≠ mark := fun hb => h.1 hb.symm
      rw [List.cons_append, List.isChain_cons]
      exact ⟨fun _ _ => by simpa using hb, ih h.2⟩

/-- The pieces are the longest groups in which a mark comes last or not at all. -/
theorem Marked.splitBy_eq [DecidableEq α] {whole : List α} (h : Marked mark whole bodies tail) :
    whole.splitBy (fun a _ => a ≠ mark) = pieces mark bodies tail := by
  obtain ⟨rfl, hbodies, htail⟩ := h
  induction bodies with
  | nil =>
      rcases List.eq_nil_or_concat tail with rfl | ⟨tail, a, rfl⟩
      · rfl
      · rw [List.concat_eq_append, List.mem_append, not_or] at htail
        have hone := splitBy_unmarked htail.1 a
        simpa [pieces] using hone
  | cons body bodies ih =>
      rw [List.forall_mem_cons] at hbodies
      have hrest := ih hbodies.2
      rw [List.map_cons, List.flatten_cons, List.append_assoc,
        List.splitBy_append (by simp), splitBy_unmarked hbodies.1, hrest]
      simp [pieces]

/-- A list is made of bodies in one way only. -/
theorem Marked.bodies_eq {whole : List α} {bodies' : List (List α)}
    (h : Marked mark whole bodies []) (h' : Marked mark whole bodies' []) : bodies = bodies' := by
  classical
  have hpieces := h.splitBy_eq.symm.trans h'.splitBy_eq
  simp only [pieces, List.isEmpty_nil, if_true, List.append_nil] at hpieces
  exact (List.map_inj_right fun _ _ heq => List.append_cancel_right heq).1 hpieces

end Marked

/-! ### Lines of bytes -/

namespace Input

theorem cutLines_tail {tail : List UInt8} (h : lineFeed ∉ tail) :
    cutLines tail = ([], tail) := by
  induction tail with
  | nil => rfl
  | cons b tail ih =>
      rw [List.mem_cons, not_or] at h
      simp [cutLines, ih h.2, Ne.symm h.1]

theorem cutLines_body {body : List UInt8} (h : lineFeed ∉ body) (rest : List UInt8) :
    cutLines (body ++ lineFeed :: rest)
      = ((body ++ [lineFeed]) :: (cutLines rest).1, (cutLines rest).2) := by
  induction body with
  | nil => simp [cutLines]
  | cons b body ih =>
      rw [List.mem_cons, not_or] at h
      simp [cutLines, ih h.2, Ne.symm h.1]

theorem cutLines_marked {bs : List UInt8} {bodies : List (List UInt8)} {tail : List UInt8}
    (h : Marked lineFeed bs bodies tail) :
    cutLines bs = (bodies.map (· ++ [lineFeed]), tail) := by
  obtain ⟨rfl, hbodies, htail⟩ := h
  induction bodies with
  | nil => simpa using cutLines_tail htail
  | cons body bodies ih =>
      rw [List.forall_mem_cons] at hbodies
      have hrest := ih hbodies.2
      rw [List.map_cons, List.flatten_cons, List.append_assoc, List.append_assoc,
        List.singleton_append, cutLines_body hbodies.1, hrest]

/-- The lines of a stream that simply ends. -/
theorem byteLines_marked {bs : List UInt8} {bodies : List (List UInt8)} {tail : List UInt8}
    (h : Marked lineFeed bs bodies tail) :
    byteLines ⟨bs, none⟩ = pieces lineFeed bodies tail := by
  cases tail <;> simp [byteLines, cutLines_marked h, pieces]

/-! ### Decoding -/

/-- Lines that are text are decoded, and then the rest is. -/
theorem decodeLines_append (ending : Option Failure) (lines : List String)
    (rest : List (List UInt8)) :
    decodeLines ending (lines.map Utf8.bytes ++ rest)
      = (lines ++ (decodeLines ending rest).1, (decodeLines ending rest).2) := by
  induction lines with
  | nil => rfl
  | cons line lines ih => simp [decodeLines, Utf8.decode?_bytes, ih]

theorem decodeLines_bytes (ending : Option Failure) (lines : List String) :
    decodeLines ending (lines.map Utf8.bytes) = (lines, ending) := by
  have happend := decodeLines_append ending lines []
  simpa [decodeLines] using happend

end Input

/-! ### Lines of text -/

/-- The lines of a text: characters up to and including a line feed, and at the end also
characters without one. -/
def textLines (text : String) : List String :=
  (text.toList.splitBy fun c _ => c ≠ '\n').map .ofList

/-- A line feed among the bytes is a line feed among the characters. -/
theorem lineFeed_mem_encode_iff {cs : List Char} : Input.lineFeed ∈ encode cs ↔ '\n' ∈ cs := by
  rw [encode, List.mem_flatMap]
  constructor
  · intro hex
    obtain ⟨c, hc, hb⟩ := hex
    have hlead := Utf8.eq_lead_of_mem hb (by decide)
    have hchar := Utf8.ofUInt8_lead (c := c) (by rw [← hlead]; decide)
    rw [← hlead] at hchar
    rwa [show '\n' = c from hchar]
  · intro h
    exact ⟨'\n', h, by decide⟩

/-- So the cuts fall between characters. -/
theorem Marked.encode {cs : List Char} {bodies : List (List Char)} {tail : List Char}
    (h : Marked '\n' cs bodies tail) :
    Marked Input.lineFeed (encode cs) (bodies.map Utf8.encode) (Utf8.encode tail) := by
  obtain ⟨rfl, hbodies, htail⟩ := h
  have hmark : Utf8.encode ['\n'] = [Input.lineFeed] := by decide
  refine ⟨?_, ?_, fun hb => htail (lineFeed_mem_encode_iff.1 hb)⟩
  · rw [Utf8.encode_append]
    congr 1
    induction bodies with
    | nil => rfl
    | cons body bodies ih =>
        rw [List.forall_mem_cons] at hbodies
        simp only [List.map_cons, List.flatten_cons, Utf8.encode_append, hmark, ih hbodies.2]
  · intro body hbody hb
    obtain ⟨cs, hcs, rfl⟩ := List.mem_map.1 hbody
    exact hbodies cs hcs (lineFeed_mem_encode_iff.1 hb)

theorem pieces_encode (bodies : List (List Char)) (tail : List Char) :
    pieces Input.lineFeed (bodies.map encode) (encode tail)
      = (pieces '\n' bodies tail).map encode := by
  have hmark : encode ['\n'] = [Input.lineFeed] := by decide
  have htail : (encode tail).isEmpty = tail.isEmpty := by
    cases tail <;> simp [Utf8.utf8EncodeChar_eq]
  rw [pieces, htail, pieces]
  cases tail.isEmpty <;> simp [← hmark, Function.comp_def]

theorem byteLines_bytes (text : String) :
    Input.byteLines ⟨Utf8.bytes text, none⟩ = (textLines text).map Utf8.bytes := by
  obtain ⟨cs, rfl⟩ := text.exists_eq_ofList
  obtain ⟨bodies, tail, h⟩ := exists_marked '\n' cs
  rw [Utf8.bytes_ofList, Input.byteLines_marked h.encode, pieces_encode, textLines,
    String.toList_ofList, h.splitBy_eq, List.map_map]
  simp [Function.comp_def]

/-- **A session that reads a text gets its lines.** -/
theorem lines_bytes (text : String) :
    Input.lines ⟨Utf8.bytes text, none⟩ = (textLines text, none) := by
  rw [Input.lines, byteLines_bytes, Input.decodeLines_bytes]
  rfl

theorem join_map_ofList (css : List (List Char)) :
    String.join (css.map .ofList) = .ofList css.flatten := by
  induction css with
  | nil => rfl
  | cons cs css ih => simp [ih, String.ofList_append]

theorem join_flatten (groups : List (List String)) :
    String.join groups.flatten = .join (groups.map .join) := by
  induction groups with
  | nil => rfl
  | cons group groups ih => simp [ih]

theorem join_textLines (text : String) : String.join (textLines text) = text := by
  rw [textLines, join_map_ofList, List.flatten_splitBy, String.ofList_toList]

/-- Lines as a text has them: none is empty, and all but the last end with a line feed. -/
structure Lined (lines : List String) : Prop where
  ended : lines.IsChain fun line _ => line.toList.getLast? = some '\n'
  ne_empty : ∀ line ∈ lines, line ≠ ""

theorem lined_textLines (text : String) : Lined (textLines text) := by
  constructor
  · rw [textLines, List.isChain_map]
    refine (List.isChain_getLast_head_splitBy _ text.toList).imp ?_
    intro cs ds hseam
    obtain ⟨hcs, -, hlast⟩ := hseam
    rw [String.toList_ofList, List.getLast?_eq_some_getLast hcs]
    simpa using hlast
  · intro line hline
    obtain ⟨cs, hcs, rfl⟩ := List.mem_map.1 hline
    simpa using List.ne_nil_of_mem_splitBy hcs

namespace Lined

variable {before lines : List String} {line : String}

theorem of_append (h : Lined (before ++ lines)) : Lined lines :=
  ⟨h.ended.right_of_append, fun line hline => h.ne_empty line (List.mem_append_right before hline)⟩

theorem of_append_cons (h : Lined (before ++ line :: lines)) : Lined lines := by
  have hcons : Lined ([line] ++ lines) := h.of_append
  exact hcons.of_append

theorem of_append_left (h : Lined (before ++ lines)) : Lined before :=
  ⟨h.ended.left_of_append, fun line hline => h.ne_empty line (List.mem_append_left lines hline)⟩

theorem join_eq_empty_iff (h : Lined (before ++ lines)) :
    String.join before = "" ↔ before = [] := by
  constructor
  · intro hjoin
    cases before with
    | nil => rfl
    | cons line before =>
        rw [String.join_cons, String.append_eq_empty_iff] at hjoin
        exact absurd hjoin.1 (h.ne_empty line (by simp))
  · intro heq
    subst heq
    rfl

/-- What stands before a line ends with a line feed, or is empty. -/
theorem getLast?_join (h : Lined (before ++ line :: lines)) :
    ∀ c ∈ (String.join before).toList.getLast?, c = '\n' := by
  rcases List.eq_nil_or_concat before with rfl | ⟨before, prev, rfl⟩
  · simp
  · have hprev : prev.toList.getLast? = some '\n' := by
      have hended := h.ended
      rw [List.concat_eq_append, List.append_assoc, List.singleton_append] at hended
      exact (List.isChain_cons_cons.1 hended.right_of_append).1
    intro c hc
    rw [List.concat_eq_append, String.join_append, String.toList_append, List.getLast?_append] at hc
    simp only [String.join_cons, String.join_nil, String.append_empty, hprev, Option.some_or,
      Option.mem_some] at hc
    exact hc.symm

end Lined

end MonkeyTokens
