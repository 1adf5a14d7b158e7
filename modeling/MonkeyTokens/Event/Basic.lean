/-
What happened, for those who watch.

Events are emitted on the way and never steer anything.  Each belongs to a part of the
program, its target, and has a level, a message and named values.  A log line shows all
of this; texts are quoted in it, and everything else is bare.
-/
import MonkeyTokens.Bracket.Balance
import MonkeyTokens.Span

namespace MonkeyTokens

/-- How much detail an event is. -/
inductive Level where
  | debug
  | trace
  deriving DecidableEq

/-- The name of a level as it stands in a log line. -/
def Level.name : Level → String
  | .debug => "DEBUG"
  | .trace => "TRACE"

/-- Something that happened. -/
inductive Event where
  /-- A scan met a character that begins no token, at this offset. -/
  | illegal (pos : Nat) (literal : String)
  /-- A scan was called at `pos`, read a token, and stopped at `next`. -/
  | scanned (pos next : Nat) (token : Token)
  /-- A file of `size` bytes was read. -/
  | sourceRead (path : String) (size : Nat)
  /-- The pending text of a session, of `size` bytes, is handed on. -/
  | settled (balance : Balance) (size : Nat)
  /-- The pending text of a session waits for closers. -/
  | waiting (balance : Balance)
  deriving DecidableEq

/-- A named value of an event. -/
inductive Event.Value where
  | number (n : Nat)
  | text (s : String)
  | kind (k : Kind)
  | balance (b : Balance)
  deriving DecidableEq

namespace Event

/-- Only single tokens are fine detail. -/
def level : Event → Level
  | .scanned .. => .trace
  | .illegal .. | .sourceRead .. | .settled .. | .waiting .. => .debug

/-- The part of the program that an event belongs to. -/
def target : Event → String
  | .illegal .. | .scanned .. => "monkey_lexer::scanner"
  | .sourceRead .. => "monkeyc::commands"
  | .settled .. | .waiting .. => "monkeyc::repl"

/-- The event in words. -/
def message : Event → String
  | .illegal .. => "illegal character"
  | .scanned .. => "next_token"
  | .sourceRead .. => "read source file"
  | .settled .. => "scanning buffered input"
  | .waiting .. => "waiting for closing delimiters"

/-- The values of an event, with their names, in the order in which they are shown. -/
def fields : Event → List (String × Value)
  | .illegal pos literal => [("pos", .number pos), ("literal", .text literal)]
  | .scanned pos next token =>
    [("pos", .number pos), ("next", .number next), ("kind", .kind token.kind),
      ("literal", .text token.literal)]
  | .sourceRead path size => [("path", .text path), ("bytes", .number size)]
  | .settled balance size => [("balance", .balance balance), ("bytes", .number size)]
  | .waiting balance => [("balance", .balance balance)]

/-! ### Log lines -/

/-- A value as it stands in a log line. -/
def Value.render : Value → String
  | .number n => toString n
  | .text s => Quoted.encode s
  | .kind k => k.name
  | .balance b => b.label

/-- The log line of an event, without the line break. -/
def render (e : Event) : String :=
  e.level.name ++ " " ++ e.target ++ ": " ++ e.message
    ++ String.join (e.fields.map fun f => " " ++ f.1 ++ "=" ++ f.2.render)

end Event

/-! ### Events of a scan -/

/-- The event that a scan emits when it reads an illegal character. -/
def Span.illegalEvents (s : Span) : List Event :=
  if s.token.kind = .illegal then [.illegal s.start s.token.literal] else []

/-- All events of a scan that is a step of a chain. -/
def Span.events (s : Span) : List Event :=
  s.illegalEvents ++ [.scanned s.origin s.stop s.token]

end MonkeyTokens
