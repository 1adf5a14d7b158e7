/-
The events of taking a text apart, as a record of the text.

Each scan of a chain reports where it was called, where it stopped and what it read, and an
illegal character is reported before that with its own offset.  No report of a scan says where
its token begins, but the token has its length, and what lies before it are blanks.  So a scan
is read back from its report (`Event.scan?`), and with it the offset of an illegal character.

What one scan reports is exact (`Span.Exact`).  A chain calls each scan where the one before it
stopped, so its reports cover what they take apart from its beginning to its end, without a gap
and without a byte told twice (`Covers`).
-/
import MonkeyTokens.Listing
import MonkeyTokens.Proofs.MaximalMunch
import MonkeyTokens.Proofs.Written

namespace MonkeyTokens

open Utf8 (size encode slice)
open ByteClass (ofChar)

/-! ### One scan -/

/-- What a scan says of these bytes is true: blanks from where it was called up to its token,
and then the bytes of the token up to where it stopped. -/
structure Span.Exact (bs : List UInt8) (s : Span) : Prop where
  forwards : s.origin ≤ s.start
  stop_eq : s.start + s.token.literal.utf8ByteSize = s.stop
  inside : s.stop ≤ bs.length
  blanks : ∀ b ∈ slice bs s.origin s.start, isBlank b = true
  literal : slice bs s.start s.stop = Utf8.bytes s.token.literal

namespace Span

variable {gap : List Char}

theorem exact_blanks (us : List Char) (hgap : ∀ b ∈ gap, isBlankChar b = true) :
    Exact (encode (us ++ gap)) ⟨size us, size (us ++ gap), size (us ++ gap), .eof⟩ := by
  have hslice := Utf8.slice_encode us gap []
  rw [List.append_nil] at hslice
  refine ⟨by simp, rfl, by simp, ?_, ?_⟩
  · intro b hb
    rw [hslice] at hb
    exact isBlank_of_mem_encode hgap hb
  · show slice _ (size (us ++ gap)) (size (us ++ gap)) = []
    rw [slice, List.drop_eq_nil_iff, List.length_take]
    omega

theorem exact_token (us : List Char) (hgap : ∀ b ∈ gap, isBlankChar b = true) (c : Char)
    (cs : List Char) :
    Exact (encode (us ++ (gap ++ c :: cs)))
      ⟨size us, size (us ++ gap), size (us ++ gap ++ c :: (ofChar c).run cs),
        Token.first c cs⟩ := by
  have hlength : (Token.first c cs).literal.utf8ByteSize = size (c :: (ofChar c).run cs) :=
    Utf8.utf8ByteSize_ofList _
  have hsplit : us ++ (gap ++ c :: cs) = us ++ gap ++ c :: cs := (List.append_assoc ..).symm
  refine ⟨by simp, ?_, ?_, ?_, ?_⟩
  · rw [hlength, Utf8.size_append (us ++ gap)]
  · rw [hsplit, encode_lexeme, Utf8.length_encode, Utf8.size_append (_ ++ c :: _)]
    exact Nat.le_add_right _ _
  · intro b hb
    rw [hsplit, Utf8.slice_encode] at hb
    exact isBlank_of_mem_encode hgap hb
  · rw [hsplit, slice_lexeme, Token.bytes_first]

end Span

/-! ### A chain of scans -/

/-- A chain of scans takes these bytes apart from an offset on: each scan says what is true and
is called where the one before it stopped, and the last stops at the end. -/
structure Covers (bs : List UInt8) (pos : Nat) (chain : List Span) : Prop where
  head : chain.head?.map (·.origin) = some pos
  linked : chain.IsChain fun s s' => s'.origin = s.stop
  last : chain.getLast?.map (·.stop) = some bs.length
  exact : ∀ s ∈ chain, s.Exact bs

namespace Covers

variable {bs : List UInt8} {pos : Nat} {s : Span} {chain : List Span}

theorem single (hs : s.Exact bs) (hstop : s.stop = bs.length) : Covers bs s.origin [s] := by
  refine ⟨rfl, by simp, ?_, ?_⟩
  · simp [hstop]
  · simpa using hs

/-- One more scan before the others, called anywhere, that stops where they begin. -/
theorem cons (hs : s.Exact bs) (h : Covers bs s.stop chain) :
    Covers bs s.origin (s :: chain) := by
  cases chain with
  | nil => cases h.head
  | cons s' chain =>
      have hnext : s'.origin = s.stop := by simpa using h.head
      refine ⟨rfl, List.isChain_cons_cons.2 ⟨hnext, h.linked⟩, ?_,
        List.forall_mem_cons.2 ⟨hs, h.exact⟩⟩
      rw [List.getLast?_cons_cons]
      exact h.last

/-- **The bytes of the scans, one after another, are the bytes that the chain takes apart.** -/
theorem flatten_slices (h : Covers bs pos chain) :
    (chain.map fun s => slice bs s.origin s.stop).flatten = bs.drop pos := by
  induction chain generalizing pos with
  | nil => cases h.head
  | cons s chain ih =>
      have hs := h.exact s (by simp)
      have hpos : s.origin = pos := by simpa using h.head
      subst hpos
      have hle : s.origin ≤ s.stop := by
        have hforwards := hs.forwards
        have hstop := hs.stop_eq
        omega
      have hsplit : slice bs s.origin s.stop ++ bs.drop s.stop = bs.drop s.origin := by
        have hdrop := congrArg (List.drop s.origin) (List.take_append_drop s.stop bs)
        rw [List.drop_append_of_le_length (by rw [List.length_take]; have := hs.inside; omega)]
          at hdrop
        exact hdrop
      cases chain with
      | nil =>
          have hstop : s.stop = bs.length := by simpa using h.last
          rw [hstop, List.drop_length, List.append_nil] at hsplit
          simpa [hstop] using hsplit
      | cons s' chain =>
          obtain ⟨hnext, hlinked⟩ := List.isChain_cons_cons.1 h.linked
          have hrest : Covers bs s.stop (s' :: chain) := ⟨by simp [hnext], hlinked, h.last,
            fun t ht => h.exact t (List.mem_cons_of_mem s ht)⟩
          rw [List.map_cons, List.flatten_cons, ih hrest, hsplit]

end Covers

/-- The chain of scans covers what lies ahead. -/
theorem covers_spansAhead (us cs : List Char) :
    Covers (encode (us ++ cs)) (size us) (spansAhead us cs) := by
  induction cs using scan_induction generalizing us with
  | blanks gap hgap =>
      rw [spansAhead_blanks us hgap]
      exact .single (Span.exact_blanks us hgap) (Utf8.length_encode _).symm
  | token gap c cs hgap hc ih =>
      have hrest := ih (us ++ gap ++ c :: (ofChar c).run cs)
      rw [append_lexeme] at hrest
      rw [spansAhead_token us hgap hc]
      exact .cons (Span.exact_token us hgap c cs) hrest

theorem covers_spans (source : String) : Covers (Utf8.bytes source) 0 (spans source) := by
  obtain ⟨cs, rfl⟩ := source.exists_eq_ofList
  rw [Utf8.bytes_ofList, spans_ofList]
  exact covers_spansAhead [] cs

/-! ### The events -/

/-- The events of taking a text apart. -/
def scanEvents (source : String) : List Event :=
  (spans source).flatMap Span.events

/-- The scan that an event is the report of.  Its token is as long as it says, and ends where the
scan stopped. -/
def Event.scan? : Event → Option Span
  | .scanned pos next token => some ⟨pos, next - token.literal.utf8ByteSize, next, token⟩
  | .illegal .. | .sourceRead .. | .settled .. | .waiting .. => none

/-- An exact scan is read back from its events. -/
theorem Span.Exact.filterMap_scan?_events {bs : List UInt8} {s : Span} (h : s.Exact bs) :
    s.events.filterMap Event.scan? = [s] := by
  have hscan : Event.scan? (.scanned s.origin s.stop s.token) = some s := by
    rw [Event.scan?, ← h.stop_eq, Nat.add_sub_cancel, h.stop_eq]
  have hillegal : s.illegalEvents.filterMap Event.scan? = [] := by
    unfold Span.illegalEvents
    split <;> rfl
  rw [Span.events, List.filterMap_append, hillegal, List.nil_append,
    List.filterMap_cons_some hscan, List.filterMap_nil]

/-- **The scans of a text are read back from its events.** -/
theorem filterMap_scan?_scanEvents (source : String) :
    (scanEvents source).filterMap Event.scan? = spans source := by
  have hexact := (covers_spans source).exact
  rw [scanEvents]
  generalize spans source = chain at hexact
  induction chain with
  | nil => rfl
  | cons s chain ih =>
      rw [List.forall_mem_cons] at hexact
      rw [List.flatMap_cons, List.filterMap_append, hexact.1.filterMap_scan?_events, ih hexact.2,
        List.singleton_append]

theorem logged_map_log (events : List Event) : logged (events.map .log) = events := by
  induction events with
  | nil => rfl
  | cons event events ih => rw [List.map_cons, logged, ih]

theorem logged_flatMap_logs (chain : List Span) :
    logged (chain.flatMap Span.logs) = chain.flatMap Span.events := by
  induction chain with
  | nil => rfl
  | cons s chain ih =>
      rw [List.flatMap_cons, logged_append, ih, Span.logs, logged_map_log, List.flatMap_cons]

/-- A listing reports the events of taking its text apart, and writes nothing before them. -/
theorem Listing.logged_ofText (label source : String) :
    logged (ofText label source).effects = scanEvents source := by
  have hlines : ∀ chain : List Span, logged (chain.map fun s => .write (line s.token)) = [] := by
    intro chain
    induction chain with
    | nil => rfl
    | cons s chain ih => rw [List.map_cons, logged, ih]
  rw [ofText]
  simp only [logged_append, logged_flatMap_logs, logged, hlines, List.append_nil]
  rfl

/-- **The events of taking a text apart are a faithful record of it.**

There is one report for each token, in order.  The first scan is called at the beginning, each
later one where the one before it stopped, and the last stops at the end; between where a scan
was called and where it stopped there are blanks and then the token, and all the bytes of the
text are told once.  The only other events are those of illegal characters: one right before
the report of each illegal token, with the offset at which that character stands. -/
theorem scanEvents_faithful (source : String) :
    (∀ label, (Sink.unbounded.perform (Listing.ofText label source)).events = scanEvents source)
      ∧ ∃ scans, (scanEvents source).filterMap Event.scan? = scans
        ∧ scans.map (·.token) = tokenize source
        ∧ scans.head?.map (·.origin) = some 0
        ∧ scans.IsChain (fun s s' => s'.origin = s.stop)
        ∧ (∃ last, scans.getLast? = some last ∧ last.token = .eof
          ∧ last.stop = source.utf8ByteSize)
        ∧ (∀ s ∈ scans, s.origin + s.token.literal.utf8ByteSize ≤ s.stop
          ∧ slice (Utf8.bytes source) (s.stop - s.token.literal.utf8ByteSize) s.stop
            = Utf8.bytes s.token.literal
          ∧ ∀ b ∈ slice (Utf8.bytes source) s.origin (s.stop - s.token.literal.utf8ByteSize),
            isBlank b = true)
        ∧ (scans.map fun s => slice (Utf8.bytes source) s.origin s.stop).flatten
          = Utf8.bytes source
        ∧ scanEvents source = scans.flatMap fun s =>
          (if s.token.kind = .illegal then
              [.illegal (s.stop - s.token.literal.utf8ByteSize) s.token.literal]
            else [])
            ++ [.scanned s.origin s.stop s.token] := by
  have hcovers := covers_spans source
  have hstart : ∀ s ∈ spans source, s.stop - s.token.literal.utf8ByteSize = s.start := by
    intro s hs
    have hstop := (hcovers.exact s hs).stop_eq
    omega
  refine ⟨?_, spans source, filterMap_scan?_scanEvents source, rfl, hcovers.head,
    hcovers.linked, ?_, ?_, hcovers.flatten_slices, ?_⟩
  · intro label
    rw [Sink.perform_unbounded_eq, Listing.logged_ofText]
  · have htokens : ((spans source).map (·.token)).getLast? = some .eof := by
      show (tokenize source).getLast? = some .eof
      rw [tokenize_eq, List.getLast?_concat]
    rw [List.getLast?_map, Option.map_eq_some_iff] at htokens
    obtain ⟨last, hlast, htoken⟩ := htokens
    have hstop := hcovers.last
    rw [hlast, Option.map_some, Option.some.injEq, Utf8.length_bytes] at hstop
    exact ⟨last, hlast, htoken, hstop⟩
  · intro s hs
    have hexact := hcovers.exact s hs
    rw [hstart s hs]
    refine ⟨?_, hexact.literal, hexact.blanks⟩
    have hforwards := hexact.forwards
    have hstop := hexact.stop_eq
    omega
  · rw [scanEvents]
    refine List.flatMap_congr fun s hs => ?_
    rw [hstart s hs]
    rfl

/-- A character after a blank: its own offset is not that at which the scan was called. -/
example : scanEvents " é" = [.illegal 1 "é", .scanned 0 3 ⟨.illegal, "é"⟩, .scanned 3 3 .eof] := by
  decide +kernel

end MonkeyTokens
