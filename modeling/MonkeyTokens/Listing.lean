/-
The listing of a text: a header and one line for each token, the end included.

The whole text is taken apart before the first line is written, since the header counts
the tokens.  A file is listed under its path as it was given.
-/
import MonkeyTokens.Output.Run
import MonkeyTokens.Source

namespace MonkeyTokens

namespace Listing

/-- The first line of a listing. -/
def header (label : String) (count : Nat) : String :=
  "Tokens for '" ++ label ++ "' (" ++ toString count ++ " tokens):\n"

/-- The line of a token. -/
def line (t : Token) : String :=
  "  " ++ t.render ++ "\n"

/-- Lists a text under a label. -/
def ofText (label source : String) : Run :=
  let chain := spans source
  { effects :=
      chain.flatMap Span.logs
        ++ .write (header label chain.length) :: chain.map fun s => .write (line s.token)
    failure := none }

/-- Lists a file. -/
def ofFile (read : FileReader) (path : String) : Run :=
  let source := readSource read path
  let listing : Run :=
    match source with
    | .error failure => ⟨[], some failure⟩
    | .ok text => ofText path text
  listing.after ((readEvents path source).map .log)

end Listing

end MonkeyTokens
