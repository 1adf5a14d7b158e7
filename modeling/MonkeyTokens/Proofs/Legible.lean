/-
What is printed shows what it was printed for.

A listing is read from its end.  Its header may say anything, since the label may, and may
even imitate lines of tokens; but its last line ends with a colon, and a line of a token
with a quote.  So the lines after the last colon are those of the tokens.

A transcript is read from its beginning.  It is made of prompts, single line feeds and lines
of tokens (`Part`), each of which begins with another character than the others, and the first
prompt of a block is a text of its own.  So the parts are told from the text, the groups of
lines from the parts (`shown`), and lines and tokens from the groups.
-/
import Mathlib.Algebra.GroupWithZero.Nat
import MonkeyTokens.Proofs.Session.Agreement

namespace MonkeyTokens

/-! ### Listings -/

namespace Listing

theorem toList_line (t : Token) : (line t).toList = ' ' :: ' ' :: t.render.toList ++ ['\n'] := by
  simp [line]

/-- The lines of tokens, without their line feeds. -/
theorem marked_lines (ts : List Token) :
    Marked '\n' (String.join (ts.map line)).toList
      (ts.map fun t => ' ' :: ' ' :: t.render.toList) [] := by
  refine ⟨?_, ?_, by simp⟩
  · rw [String.toList_join, List.flatMap_map, List.append_nil, List.map_map, ← List.flatMap_def]
    simp only [Function.comp_def, toList_line]
  · intro body hbody
    obtain ⟨t, -, rfl⟩ := List.mem_map.1 hbody
    simpa using t.newline_notMem_render

/-- The lines of a header, of which there may be several, and of which the last ends with a
colon. -/
theorem exists_marked_header (label : String) (count : Nat) :
    ∃ bodies last, Marked '\n' (header label count).toList (bodies ++ [last ++ [':']]) [] := by
  obtain ⟨start, hstart⟩ : ∃ start, (header label count).toList = start ++ [':', '\n'] := by
    refine ⟨("Tokens for '" ++ label ++ "' (" ++ toString count ++ " tokens)").toList, ?_⟩
    simp [header]
  obtain ⟨bodies, last, hmarked⟩ := exists_marked '\n' start
  refine ⟨bodies, last, ?_, ?_, by simp⟩
  · rw [hstart, hmarked.whole_eq]
    simp
  · intro body hbody
    rcases List.mem_append.1 hbody with hbody | hbody
    · exact hmarked.not_mem_body body hbody
    · have hlast := hmarked.not_mem_tail
      simpa [List.mem_singleton.1 hbody] using hlast

/-- **A listing shows its label and its tokens.** -/
theorem eq_of_listing_eq {label label' : String} {ts ts' : List Token}
    (h : header label ts.length ++ .join (ts.map line)
      = header label' ts'.length ++ .join (ts'.map line)) : label = label' ∧ ts = ts' := by
  obtain ⟨bodies, last, hheader⟩ := exists_marked_header label ts.length
  obtain ⟨bodies', last', hheader'⟩ := exists_marked_header label' ts'.length
  have hwhole := hheader.append (marked_lines ts)
  rw [← String.toList_append, h, String.toList_append] at hwhole
  have hbodies := hwhole.bodies_eq (hheader'.append (marked_lines ts'))
  rw [List.append_assoc, List.append_assoc, List.singleton_append, List.singleton_append] at hbodies
  have hquote : ∀ ts : List Token, ∀ body ∈ ts.map fun t => ' ' :: ' ' :: t.render.toList,
      decide (body.getLast? = some '"') = true := by
    intro ts body hbody
    obtain ⟨t, -, rfl⟩ := List.mem_map.1 hbody
    obtain ⟨quoted, hquoted⟩ := t.exists_quote_render
    rw [decide_eq_true_eq, hquoted, ← List.cons_append, ← List.cons_append, List.getLast?_concat]
  have htokens : ts = ts' := by
    have hmap := eq_of_append_cons_of_forall (by simp) (by simp) (hquote ts) (hquote ts') hbodies
    refine (List.map_inj_right ?_).1 hmap
    intro t u heq
    exact Token.render_inj (String.toList_inj.1 (List.cons.inj (List.cons.inj heq).2).2)
  subst htokens
  have hheaders := (String.append_left_inj _).1 h
  refine ⟨?_, rfl⟩
  simpa [header] using hheaders

end Listing

namespace Session

/-! ### The parts of a transcript -/

/-- What a transcript is made of. -/
inductive Part
  /-- The prompt for the first line of a group. -/
  | first
  /-- The prompt for one more line of it. -/
  | more
  /-- The line feed before what still waits at the end. -/
  | gap
  | token (t : Token)
  deriving DecidableEq

namespace Part

/-- How a part is written. -/
def text : Part → String
  | first => ">> "
  | more => ".. "
  | gap => "\n"
  | token t => line t

/-- The token of a part, if it is that of a token. -/
def token? : Part → Option Token
  | token t => some t
  | first | more | gap => none

@[simp] theorem count_more_tokens (ts : List Token) : (ts.map token).count more = 0 := by
  simp [List.count_eq_zero]

@[simp] theorem token?_comp_token : token? ∘ token = some :=
  rfl

@[simp] theorem filterMap_token?_replicate (n : Nat) :
    (List.replicate n more).filterMap token? = [] :=
  List.filterMap_replicate_of_none rfl

/-- A part begins with a capital letter if it is that of a token, and only then. -/
theorem exists_head (p : Part) :
    ∃ c body, p.text.toList = c :: body ∧ (c.isUpper = true ↔ ∃ t, p = token t) := by
  cases p with
  | first => exact ⟨'>', ['>', ' '], rfl, by simp⟩
  | more => exact ⟨'.', ['.', ' '], rfl, by simp⟩
  | gap => exact ⟨'\n', [], rfl, by simp⟩
  | token t =>
      obtain ⟨c, body, hline, hc, -⟩ := toList_line t
      exact ⟨c, body ++ ['\n'], hline, by simp [hc]⟩

theorem toList_text_ne_nil (p : Part) : p.text.toList ≠ [] := by
  obtain ⟨c, body, hp, -⟩ := p.exists_head
  simp [hp]

/-- **The first part of a transcript can be told from the rest.** -/
theorem prefixFree_text : PrefixFree fun p : Part => p.text.toList := by
  intro p q us vs h
  obtain ⟨c, body, hp, hpc⟩ := p.exists_head
  obtain ⟨d, body', hq, hqd⟩ := q.exists_head
  have hcd : c = d := by
    simp only [hp, hq, List.cons_append, List.cons.injEq] at h
    exact h.1
  have htoken : (∃ t, p = token t) ↔ ∃ u, q = token u := by
    rw [← hpc, hcd, hqd]
  by_cases htokens : ∃ t, p = token t
  · obtain ⟨u, rfl⟩ := htoken.1 htokens
    obtain ⟨t, rfl⟩ := htokens
    -- A printed token goes up to the first line feed.
    have hrender : t.render.toList ++ '\n' :: us = u.render.toList ++ '\n' :: vs := by
      simpa [text, line] using h
    have hsame := (eq_of_append_mark t.newline_notMem_render u.newline_notMem_render hrender).1
    rw [Token.render_inj (String.toList_inj.1 hsame)]
  · have hnot := mt htoken.2 htokens
    cases p <;> cases q <;> simp_all [text]

end Part

/-! ### Groups of lines -/

/-- What a transcript shows of lines that are printed together. -/
structure Group where
  /-- How many lines they are. -/
  lines : Nat
  tokens : List Token
  deriving DecidableEq

namespace Group

/-- The group of some lines. -/
def ofLines (block : List String) : Group :=
  ⟨block.length, MonkeyTokens.tokens (.join block)⟩

/-- The parts of a block, but for its first prompt. -/
def blockParts (g : Group) : List Part :=
  .replicate (g.lines - 1) .more ++ g.tokens.map .token

/-- The parts of lines that never settle, but for the first prompt. -/
def tailParts (g : Group) : List Part :=
  .replicate g.lines .more ++ (if g.lines = 0 then [] else [.gap]) ++ g.tokens.map .token

/-- The group that parts show, where all prompts count. -/
def ofParts (ps : List Part) : Group :=
  ⟨ps.count .more, ps.filterMap Part.token?⟩

/-- A block has one prompt less than lines among its parts. -/
theorem ofParts_blockParts {g : Group} (h : g.lines ≠ 0) : ofParts (.more :: g.blockParts) = g := by
  obtain ⟨lines, tokens⟩ := g
  have hlines : lines - 1 + 1 = lines := Nat.sub_one_add_one h
  simp [ofParts, blockParts, hlines, List.filterMap_cons, Part.token?]

theorem ofParts_tailParts (g : Group) : ofParts g.tailParts = g := by
  obtain ⟨lines, tokens⟩ := g
  by_cases hlines : lines = 0 <;>
    simp [ofParts, tailParts, hlines, List.filterMap_cons, Part.token?]

theorem first_notMem_blockParts (g : Group) : Part.first ∉ g.blockParts := by
  simp [blockParts, List.mem_replicate]

theorem first_notMem_tailParts (g : Group) : Part.first ∉ g.tailParts := by
  by_cases hlines : g.lines = 0 <;> simp [tailParts, hlines]

end Group

/-- What a transcript shows of lines: the group of each block, and that of the lines that
never settle. -/
def shown (lines : List String) : List Group × Group :=
  ((blocks [] lines).1.map .ofLines, .ofLines (blocks [] lines).2)

/-- What is shown, in parts: a group begins with a first prompt. -/
def parts (groups : List Group × Group) : List Part :=
  ((groups.1.map Group.blockParts ++ [groups.2.tailParts]).map (Part.first :: ·)).flatten

theorem toList_prompts_succ (n : Nat) :
    (prompts (n + 1)).toList
      = (Part.first :: .replicate n .more).flatMap fun p => p.text.toList := by
  simp [prompts, Part.text, String.toList_join, List.flatMap_replicate]

theorem toList_tokenLines (source : String) :
    (tokenLines source).toList
      = ((tokens source).map Part.token).flatMap fun p => p.text.toList := by
  rw [tokenLines, String.toList_join, List.flatMap_map, List.flatMap_map]
  rfl

theorem toList_blockText {block : List String} (h : block ≠ []) :
    (blockText block).toList
      = (Part.first :: (Group.ofLines block).blockParts).flatMap fun p => p.text.toList := by
  obtain ⟨n, hn⟩ : ∃ n, block.length = n + 1 :=
    Nat.exists_eq_add_one_of_ne_zero (by simpa using h)
  rw [blockText, String.toList_append, hn, toList_prompts_succ, toList_tokenLines,
    ← List.flatMap_append, Group.blockParts, Group.ofLines, hn]
  rfl

theorem toList_tailText (tail : List String) :
    (tailText tail).toList
      = (Part.first :: (Group.ofLines tail).tailParts).flatMap fun p => p.text.toList := by
  rw [tailText, String.toList_append, toList_prompts_succ, Group.tailParts, Group.ofLines]
  by_cases htail : tail = []
  · simp [htail, tokens_empty]
  · simp [htail, toList_tokenLines, Part.text]

/-- **A transcript is made of the parts of what it shows.** -/
theorem toList_transcript (lines : List String) :
    (transcript lines).toList = (parts (shown lines)).flatMap fun p => p.text.toList := by
  have hblocks : ∀ bs : List (List String), (∀ block ∈ bs, block ≠ []) →
      (String.join (bs.map blockText)).toList
        = (((bs.map Group.ofLines).map Group.blockParts).map (Part.first :: ·)).flatten.flatMap
            fun p => p.text.toList := by
    intro bs hbs
    induction bs with
    | nil => rfl
    | cons block bs ih =>
        rw [List.forall_mem_cons] at hbs
        simp only [List.map_cons, String.join_cons, String.toList_append, List.flatten_cons,
          List.flatMap_append, toList_blockText hbs.1, ih hbs.2]
  rw [transcript, String.toList_append, hblocks _ ne_nil_of_mem_blocks, toList_tailText,
    ← List.flatMap_append, parts, shown]
  simp

/-- What is shown can be told from its parts, where every block has a line. -/
theorem parts_injective {groups groups' : List Group × Group}
    (h : ∀ g ∈ groups.1, g.lines ≠ 0) (h' : ∀ g ∈ groups'.1, g.lines ≠ 0)
    (heq : parts groups = parts groups') : groups = groups' := by
  have hfirst : ∀ groups : List Group × Group,
      ∀ ps ∈ groups.1.map Group.blockParts ++ [groups.2.tailParts], Part.first ∉ ps := by
    intro groups ps hps
    rcases List.mem_append.1 hps with hblock | htail
    · obtain ⟨g, -, rfl⟩ := List.mem_map.1 hblock
      exact g.first_notMem_blockParts
    · rw [List.mem_singleton.1 htail]
      exact groups.2.first_notMem_tailParts
  have hread : ∀ gs : List Group, (∀ g ∈ gs, g.lines ≠ 0) →
      (gs.map Group.blockParts).map (fun ps => Group.ofParts (.more :: ps)) = gs := by
    intro gs hgs
    rw [List.map_map]
    conv_rhs => rw [← List.map_id gs]
    refine List.map_congr_left ?_
    intro g hg
    exact Group.ofParts_blockParts (hgs g hg)
  have hparts := flatten_map_cons_injective (hfirst groups) (hfirst groups') heq
  obtain ⟨hblocks, htail⟩ := List.append_inj' hparts rfl
  refine Prod.ext ?_ ?_
  · rw [← hread groups.1 h, hblocks, hread groups'.1 h']
  · rw [← groups.2.ofParts_tailParts, (List.cons.inj htail).1, groups'.2.ofParts_tailParts]

/-- **A transcript shows its groups.** -/
theorem shown_eq_of_transcript_eq {lines lines' : List String}
    (h : transcript lines = transcript lines') : shown lines = shown lines' := by
  have hlines : ∀ lines : List String, ∀ g ∈ (shown lines).1, g.lines ≠ 0 := by
    intro lines g hg
    obtain ⟨block, hblock, rfl⟩ := List.mem_map.1 hg
    rw [Group.ofLines]
    simpa using ne_nil_of_mem_blocks block hblock
  have hchars := congrArg String.toList h
  rw [toList_transcript, toList_transcript] at hchars
  have hparts := Part.prefixFree_text.flatMap_injective Part.toList_text_ne_nil hchars
  exact parts_injective (hlines lines) (hlines lines') hparts

/-- How many lines there are can be told from their groups. -/
theorem length_eq_shown (lines : List String) :
    lines.length = ((shown lines).1.map Group.lines).sum + (shown lines).2.lines := by
  have hflatten := congrArg List.length (flatten_blocks [] lines)
  rw [List.nil_append, List.length_append, List.length_flatten] at hflatten
  rw [← hflatten, shown, List.map_map]
  rfl

/-- And so can the tokens. -/
theorem tokens_eq_shown {lines : List String} (h : Lined lines) :
    tokens (.join lines)
      = ((shown lines).1.map Group.tokens).flatten ++ (shown lines).2.tokens := by
  have hflatten : (blocks [] lines).1.flatten ++ (blocks [] lines).2 = lines :=
    flatten_blocks [] lines
  have htokens := tokens_flatten (by rwa [hflatten])
  rw [hflatten] at htokens
  rw [htokens, shown, List.map_map]
  rfl

end Session

/-! ### What is told from what is printed -/

/-- **What is printed can be read back in one way only.**  A listing shows its label and all
tokens, and a session the number of the lines that it read, the groups in which it printed
them, and all tokens.  A line of either shows the token that it was printed for. -/
theorem printed_injective :
    (∀ label label' source source',
        (Sink.unbounded.perform (Listing.ofText label source)).written
          = (Sink.unbounded.perform (Listing.ofText label' source')).written →
        label = label' ∧ tokenize source = tokenize source')
      ∧ (∀ text text',
        (Sink.unbounded.perform (Session.run ⟨Utf8.bytes text, none⟩)).written
          = (Sink.unbounded.perform (Session.run ⟨Utf8.bytes text', none⟩)).written →
        (textLines text).length = (textLines text').length
          ∧ Session.shown (textLines text) = Session.shown (textLines text')
          ∧ tokenize text = tokenize text')
      ∧ (∀ t u : Token, t.render = u.render → t = u)
      ∧ ∀ t : Token, '\n' ∉ t.render.toList := by
  simp only [Sink.perform_unbounded_eq]
  refine ⟨?_, ?_, fun _ _ => Token.render_inj, Token.newline_notMem_render⟩
  · intro label label' source source' h
    have hwritten := Utf8.bytes_injective h
    rw [Listing.written_ofText_tokenize, Listing.written_ofText_tokenize] at hwritten
    exact Listing.eq_of_listing_eq hwritten
  · intro text text' h
    have hwritten := Utf8.bytes_injective h
    rw [Session.written_run, Session.written_run] at hwritten
    have hshown := Session.shown_eq_of_transcript_eq hwritten
    refine ⟨?_, hshown, ?_⟩
    · rw [Session.length_eq_shown, hshown, ← Session.length_eq_shown]
    · have htokens := Session.tokens_eq_shown (lined_textLines text)
      rw [hshown, ← Session.tokens_eq_shown (lined_textLines text'), join_textLines, join_textLines,
        tokens_eq, tokens_eq] at htokens
      rw [tokenize_eq, tokenize_eq, htokens]

end MonkeyTokens
