/-
What can go wrong outside the text.

Scanning never fails.  Getting text in and tokens out may: a file cannot be read, or its
bytes are no text, or a stream breaks.  The cause is kept as a value, and its wording is
fixed here.
-/

namespace MonkeyTokens

/-- Why a file system does not give the bytes of a file. -/
inductive ReadFault where
  /-- There is no such file. -/
  | missing
  /-- The file may not be read. -/
  | refused
  /-- The path leads to a directory. -/
  | directory
  /-- The path goes through something that is no directory. -/
  | notDirectory
  /-- The path, or a name in it, is longer than the file system takes. -/
  | nameTooLong
  /-- The path leads through more links than the file system follows. -/
  | tooManyLinks
  /-- The path has a zero character, which no file name has. -/
  | zeroInName
  /-- Anything else, in the words of the file system. -/
  | other (reason : String)
  deriving DecidableEq

/-- The fault in words. -/
def ReadFault.reason : ReadFault → String
  | .missing => "No such file or directory (os error 2)"
  | .refused => "Permission denied (os error 13)"
  | .directory => "Is a directory (os error 21)"
  | .notDirectory => "Not a directory (os error 20)"
  | .nameTooLong => "File name too long (os error 36)"
  | .tooManyLinks => "Too many levels of symbolic links (os error 40)"
  | .zeroInName => "file name contained an unexpected NUL byte"
  | .other reason => reason

/-- A failure that ends a run. -/
inductive Failure where
  | notFound (path : String)
  | permissionDenied (path : String)
  /-- The file was read, but its bytes are no text. -/
  | invalidUtf8 (path : String)
  /-- The file cannot be read for any other reason. -/
  | unreadable (path reason : String)
  /-- A stream broke. -/
  | stream (reason : String)
  deriving DecidableEq

namespace Failure

/-- The failure in words. -/
def message : Failure → String
  | .notFound path => "cannot find file '" ++ path ++ "'"
  | .permissionDenied path => "permission denied reading '" ++ path ++ "'"
  | .invalidUtf8 path => "'" ++ path ++ "' contains invalid UTF-8 data"
  | .unreadable path reason => "error reading '" ++ path ++ "': " ++ reason
  | .stream reason => reason

/-- The cause behind a failure, where the message does not already say it all. -/
def cause : Failure → Option String
  | .unreadable _ reason => some reason
  | .notFound _ | .permissionDenied _ | .invalidUtf8 _ | .stream _ => none

/-- The failure to read `path` for a given reason. -/
def ofReadFault (path : String) : ReadFault → Failure
  | .missing => .notFound path
  | .refused => .permissionDenied path
  | fault => .unreadable path fault.reason

end Failure

end MonkeyTokens
