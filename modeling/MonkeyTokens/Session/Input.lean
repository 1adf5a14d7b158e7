/-
What a session reads: lines from a stream of bytes.

A line goes up to and includes its line feed.  Bytes after the last line feed are a line
too when the stream simply ends, and are lost when the stream breaks instead.  Lines are
decoded one by one, and the first that is no text ends the reading, as a break does.
-/
import MonkeyTokens.Failure
import MonkeyTokens.Text.Utf8

namespace MonkeyTokens

/-- A stream of bytes. -/
structure Input where
  bytes : List UInt8
  /-- The reason why the stream breaks after its bytes, if it does not just end. -/
  fault : Option String
  deriving DecidableEq

namespace Input

/-- The stream that just ends after these bytes. -/
def ofBytes (bytes : List UInt8) : Input :=
  ⟨bytes, none⟩

instance : Coe (List UInt8) Input := ⟨ofBytes⟩

/-- The byte that ends a line. -/
def lineFeed : UInt8 := 0x0A

/-- Cuts bytes after each line feed: the complete lines, and what follows the last. -/
def cutLines : List UInt8 → List (List UInt8) × List UInt8
  | [] => ([], [])
  | b :: bs =>
    match cutLines bs with
    | (lines, rest) =>
      if b = lineFeed then ([b] :: lines, rest)
      else
        match lines with
        | [] => ([], b :: rest)
        | line :: lines => ((b :: line) :: lines, rest)

/-- The lines of a stream, as bytes. -/
def byteLines (input : Input) : List (List UInt8) :=
  match cutLines input.bytes with
  | (lines, rest) =>
    if input.fault.isNone && !rest.isEmpty then lines ++ [rest] else lines

/-- What is said of a line that is no text. -/
def undecodable : Failure :=
  .stream "stream did not contain valid UTF-8"

/-- Decodes lines up to the first that is no text.  If all are text, the reading ends with
`ending`. -/
def decodeLines (ending : Option Failure) : List (List UInt8) → List String × Option Failure
  | [] => ([], ending)
  | bytes :: rest =>
    match Utf8.decode? bytes with
    | none => ([], some undecodable)
    | some line =>
      match decodeLines ending rest with
      | (lines, failure) => (line :: lines, failure)

/-- The lines that can be read, and the failure that ends the reading, if one does. -/
def lines (input : Input) : List String × Option Failure :=
  decodeLines (input.fault.map .stream) input.byteLines

end Input

end MonkeyTokens
