/-
The tokens of a text, handed out one at a time.

A token stream is a text and an offset, and nothing else, so a copy of it is a place to
come back to.  At the end of the text it may be asked again and again: it stays there and
keeps answering that the text is over.
-/
import MonkeyTokens.Span

namespace MonkeyTokens

/-- A text that is being taken apart, and how far this has come. -/
structure TokenStream where
  source : String
  /-- Where the next scan is called. -/
  position : Nat
  deriving DecidableEq

namespace TokenStream

/-- The stream before the first token of a text. -/
def ofText (source : String) : TokenStream :=
  ⟨source, 0⟩

/-- The next scan. -/
def nextSpan (s : TokenStream) : Span :=
  Span.after s.source s.position

/-- The stream after its next scan. -/
def rest (s : TokenStream) : TokenStream :=
  { s with position := s.nextSpan.stop }

/-- The next token, which at the end is the token of the end. -/
def pull (s : TokenStream) : Token × TokenStream :=
  (s.nextSpan.token, s.rest)

/-- The next token before the end, or nothing at the end.  The stream moves either way. -/
def next? (s : TokenStream) : Option Token × TokenStream :=
  (if s.nextSpan.token.isEof then none else some s.nextSpan.token, s.rest)

/-- All scans that are left, the one that reads the end included. -/
def remaining (s : TokenStream) : List Span :=
  spansFrom s.source s.position

/-- All tokens that are left before the end, and the stream after the scan that reads it. -/
def drain (s : TokenStream) : List Token × TokenStream :=
  ((s.remaining.map (·.token)).takeWhile (!·.isEof),
    { s with position := s.remaining.foldl (fun _ span => span.stop) s.position })

end TokenStream

end MonkeyTokens
