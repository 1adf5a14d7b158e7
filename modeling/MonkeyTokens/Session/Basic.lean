/-
A session: tokens for each line typed.

Lines pile up while brackets wait for their closers.  As soon as the brackets settle,
whether all are closed or one is wrong, the tokens of everything that piled up are
printed and the session starts afresh.  The prompt tells the two states apart.

Each line is scanned once for its brackets, and the stack of open brackets is carried
from line to line.  A line feed ends every token, so the lines taken one by one hold the
same tokens as the lines together.
-/
import MonkeyTokens.Bracket.Stack
import MonkeyTokens.Output.Run
import MonkeyTokens.Session.Input

namespace MonkeyTokens

/-- A session between two lines. -/
structure Session where
  /-- The lines that wait to be printed. -/
  pending : String
  /-- The brackets of these lines. -/
  brackets : BracketStack
  deriving DecidableEq

namespace Session

/-- A session that waits for nothing. -/
def fresh : Session :=
  ⟨"", .empty⟩

/-- The prompt: one text when nothing is pending, another when lines are. -/
def prompt (s : Session) : String :=
  if s.pending.isEmpty then ">> " else ".. "

/-- Asks for a line. -/
def ask (s : Session) : List Effect :=
  [.write s.prompt, .flush]

/-- The line of a token. -/
def line (t : Token) : String :=
  t.render ++ "\n"

/-- Prints the tokens of a text up to its end, each as soon as it is scanned. -/
def printTokens (source : String) : List Effect :=
  (spans source).flatMap fun s =>
    s.logs ++ if s.token.isEof then [] else [.write (line s.token)]

/-- Takes a line: what is done about it, and the session after it. -/
def feed (s : Session) (line : String) : List Effect × Session :=
  let pending := s.pending ++ line
  let brackets := s.brackets.extend (tokens line)
  let balance := brackets.balance
  let scanned := (spans line).flatMap Span.logs
  if balance.isSettled then
    (scanned ++ .log (.settled balance pending.utf8ByteSize) :: printTokens pending, fresh)
  else
    (scanned ++ [.log (.waiting balance)], ⟨pending, brackets⟩)

/-- Ends a session.  Lines that still wait are printed as they are, on a line of their own. -/
def finish (s : Session) : List Effect :=
  if s.pending.isEmpty then [] else .write "\n" :: printTokens s.pending

/-- Takes lines, asking for each, until the reading ends. -/
def converse (s : Session) : List String → Option Failure → Run
  | [], none => ⟨s.ask ++ s.finish, none⟩
  | [], some failure => ⟨s.ask, some failure⟩
  | line :: lines, failure =>
    match s.feed line with
    | (effects, s') => (s'.converse lines failure).after (s.ask ++ effects)

/-- The session on a stream. -/
def run (input : Input) : Run :=
  fresh.converse input.lines.1 input.lines.2

end Session

end MonkeyTokens
