/-
The command.

The first argument chooses what is done: list a file, hold a session, or print the usage
or the version.  Arguments that a command does not ask for are not looked at.

What a command does is a run on the standard output, followed by a complaint on the
standard error where it fails.  Log lines also go to the standard error, before any
complaint; they change neither the run nor the exit code.
-/
import MonkeyTokens.Event.Filter
import MonkeyTokens.Listing
import MonkeyTokens.Output.Sink
import MonkeyTokens.Session.Basic

namespace MonkeyTokens

/-- What the command is asked to do. -/
inductive Command where
  | usage
  | version
  /-- List the tokens of a file. -/
  | list (path : String)
  /-- List a file that is not named. -/
  | listNothing
  /-- Hold a session on the standard input. -/
  | session
  | unknown (word : String)
  deriving DecidableEq

/-- The command in a list of arguments.  No argument at all asks for the usage. -/
def Command.ofArguments : List String → Command
  | [] => .usage
  | "lex" :: path :: _ => .list path
  | "lex" :: [] => .listNothing
  | "repl" :: _ => .session
  | "help" :: _ | "--help" :: _ | "-h" :: _ => .usage
  | "version" :: _ | "--version" :: _ | "-v" :: _ => .version
  | word :: _ => .unknown word

namespace CommandLine

/-- The version of the program. -/
def version : String := "0.1.0"

/-- How the command is used, line by line. -/
def usageLines : List String :=
  ["Monkey scanner",
    "",
    "Usage: monkey <command> [options]",
    "",
    "Commands:",
    "  lex <file>     Tokenize a file and display tokens",
    "  repl           Print tokens for each line typed",
    "  help           Show this help message",
    "  version        Show version information",
    "",
    "Set RUST_LOG=monkey_lexer=trace to log every scanned token."]

/-- How the command is used. -/
def usage : String :=
  String.join (usageLines.map (· ++ "\n"))

/-- The line that opens a session. -/
def banner : String :=
  "Monkey " ++ version ++ " token REPL. Press Ctrl-D to exit.\n"

/-- What a command can see of its surroundings. -/
structure Surroundings where
  files : FileReader
  /-- The standard input. -/
  input : Input
  /-- The choice of events to log, if one was made. -/
  logging : Option String

/-- What a command does on the standard output, and how it ends. -/
def run (world : Surroundings) : Command → Run
  | .usage => .say usage
  | .version => .say ("Monkey " ++ version ++ "\n")
  | .list path => Listing.ofFile world.files path
  | .listNothing => .idle
  | .session => (Session.run world.input).after [.write banner]
  | .unknown _ => .say usage

/-- What a command says on the standard error at its end, if it has to complain. -/
def complaint (command : Command) (failure : Option Failure) : Option String :=
  match command with
  | .listNothing => some "Usage: monkey lex <file>\n"
  | .unknown word => some ("Unknown command: " ++ word ++ "\n\n")
  | _ => failure.map fun f => "error: " ++ f.message ++ "\n"

/-- What is seen of a command from outside. -/
structure Report where
  exitCode : Nat
  stdout : List UInt8
  stderr : String
  deriving DecidableEq

/-- Runs the command that the arguments ask for, with its events logged by `logger`. -/
def reportVia (logger : Logger) (arguments : List String) (world : Surroundings) : Report :=
  let command := Command.ofArguments arguments
  let outcome := Sink.unbounded.perform (run world command)
  let logged := String.join (logger.lines world.logging outcome.events)
  match complaint command outcome.failure with
  | none => ⟨0, outcome.written, logged⟩
  | some text => ⟨1, outcome.written, logged ++ text⟩

/-- A complaint decides the exit code, and is the end of the standard error. -/
theorem reportVia_eq (logger : Logger) (arguments : List String) (world : Surroundings) :
    reportVia logger arguments world =
      let outcome := Sink.unbounded.perform (run world (.ofArguments arguments))
      let complained := complaint (.ofArguments arguments) outcome.failure
      ⟨if complained.isSome then 1 else 0, outcome.written,
        String.join (logger.lines world.logging outcome.events) ++ complained.getD ""⟩ := by
  unfold reportVia
  cases hcomplaint : complaint (.ofArguments arguments)
      (Sink.unbounded.perform (run world (.ofArguments arguments))).failure with
  | none => simp [hcomplaint]
  | some text => simp [hcomplaint]

/-- Runs the command that the arguments ask for, with the usual log lines. -/
def report : List String → Surroundings → Report :=
  reportVia .standard

end CommandLine

end MonkeyTokens
