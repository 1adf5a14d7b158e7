/-
From a path to a text.

A file system is known here by what reading a path gives: bytes, or a fault.  Reading a
source adds the one thing that a file system does not judge, whether the bytes are text,
and puts every fault into words about the path.
-/
import MonkeyTokens.Event.Basic
import MonkeyTokens.Failure

namespace MonkeyTokens

/-- A file system, as far as it is needed: what reading a path gives. -/
abbrev FileReader := String → Except ReadFault (List UInt8)

/-- The text of a file. -/
def readSource (read : FileReader) (path : String) : Except Failure String :=
  match read path with
  | .error fault => .error (.ofReadFault path fault)
  | .ok bytes =>
    match Utf8.decode? bytes with
    | none => .error (.invalidUtf8 path)
    | some text => .ok text

/-- The events of reading a file: one if its text was got, and none otherwise. -/
def readEvents (path : String) : Except Failure String → List Event
  | .error _ => []
  | .ok text => [.sourceRead path text.utf8ByteSize]

end MonkeyTokens
