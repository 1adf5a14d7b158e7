/-
The program on the real standard streams and the real file system.

Nothing is decided here.  Effects are carried out as they come, so that a session answers
each line before it asks for the next; what they are, and how the program ends, is said by
`CommandLine` and `Session`.
-/
import MonkeyTokens.CommandLine

namespace MonkeyTokens.Main

/-- The fault with a number that the operating system gives.  The number may come with its
sign turned. -/
def faultOfNumber? (code : UInt32) : Option ReadFault :=
  match if code < 0x80000000 then code else 0 - code with
  | 20 => some .notDirectory
  | 21 => some .directory
  | 36 => some .nameTooLong
  | 40 => some .tooManyLinks
  | _ => none

/-- The fault behind an error of the operating system. -/
def readFault : IO.Error → ReadFault
  | .noFileOrDirectory .. => .missing
  | .permissionDenied .. => .refused
  | e@(.inappropriateType _ code _) | e@(.invalidArgument _ code _) =>
    (faultOfNumber? code).getD (.other e.toString)
  | e => .other e.toString

/-- The bytes of a file. -/
def readFile (path : String) : IO (Except ReadFault (List UInt8)) := do
  if path.contains '\x00' then return .error .zeroInName
  try
    return .ok (← IO.FS.readBinFile path).data.toList
  catch e =>
    return .error (readFault e)

/-- The bytes of the next line, none at the end. -/
partial def readLine (stream : IO.FS.Stream) (before : ByteArray) : IO (List UInt8) := do
  let next ← stream.read 1
  let bytes := before ++ next
  if next.isEmpty || next.data.contains Input.lineFeed then return bytes.data.toList
  readLine stream bytes

/-- Carries out effects. -/
def carryOut (logging : Option String) (effects : List Effect) : IO Unit := do
  for effect in effects do
    match effect with
    | .write text => (← IO.getStdout).putStr text
    | .flush => (← IO.getStdout).flush
    | .log event =>
      for line in Logger.standard.lines logging [event] do
        (← IO.getStderr).putStr line

/-- Holds a session up to the end of the standard input. -/
partial def converse (logging : Option String) (s : Session) : IO (Option Failure) := do
  carryOut logging s.ask
  let bytes ← readLine (← IO.getStdin) ByteArray.empty
  if bytes.isEmpty then
    carryOut logging s.finish
    return none
  match Utf8.decode? bytes with
  | none => return some Input.undecodable
  | some line =>
    let (effects, next) := s.feed line
    carryOut logging effects
    converse logging next

/-- Does what a command asks for and says how it ended. -/
def perform (logging : Option String) (command : Command) : IO (Option Failure) := do
  match command with
  | .session =>
    carryOut logging [.write CommandLine.banner]
    converse logging .fresh
  | command =>
    let content ← match command with
      | .list path => readFile path
      | _ => pure (.error .missing)
    let run := CommandLine.run ⟨fun _ => content, .ofBytes [], logging⟩ command
    carryOut logging run.effects
    return run.failure

end MonkeyTokens.Main

open MonkeyTokens in
/-- Runs the command that the arguments ask for. -/
def main (arguments : List String) : IO UInt32 := do
  let logging ← IO.getEnv "RUST_LOG"
  let command := Command.ofArguments arguments
  let failure ←
    try
      Main.perform logging command
    catch e =>
      pure (some (.stream e.toString))
  (← IO.getStdout).flush
  match CommandLine.complaint command failure with
  | none => return 0
  | some text =>
    (← IO.getStderr).putStr text
    return 1
