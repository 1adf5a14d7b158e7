/-
A tree of files held as a value, and how a path is followed through it.

A path starts at the working directory or at the root, and is followed name by name: each
name is looked up in the directory reached so far, two dots lead upwards, and a link puts
the names of its target in front of the names still to come.  Only so many links are
followed, so every walk ends.  How far the working directory lies below the root is not
known.  The directories above it are there, and they hold what was put there by way of two
dots; a path from the root does not meet them.

Two faults are found before the walk: a path that no file can have, and one that is too
long as a whole.  On the way, the first fault met is the one reported.
-/
import MonkeyTokens.Source

namespace MonkeyTokens

/-- What stands under a name. -/
inductive FileEntry where
  | directory
  /-- Another path in place of this one, read from the directory of the link. -/
  | link (target : String)
  | file (bytes : List UInt8)
  /-- A file that may not be read. -/
  | locked
  deriving DecidableEq

/-- A directory that is always there. -/
inductive Base where
  | root
  /-- So many levels above the working directory. -/
  | above (levels : Nat)
  deriving DecidableEq

/-- A place in the file system. -/
structure Place where
  base : Base
  /-- The names that lead there from the base, the last one first. -/
  names : List String
  deriving DecidableEq

namespace Place

/-- The working directory. -/
def working : Place :=
  ⟨.above 0, []⟩

/-- The root. -/
def root : Place :=
  ⟨.root, []⟩

/-- The directory that holds a place.  The root holds itself. -/
def parent : Place → Place
  | ⟨base, _ :: names⟩ => ⟨base, names⟩
  | ⟨.above levels, []⟩ => ⟨.above (levels + 1), []⟩
  | ⟨.root, []⟩ => root

/-- The place of a name in a directory. -/
def child (place : Place) (name : String) : Place :=
  { place with names := name :: place.names }

end Place

/-- What was put into the file system. -/
structure FileTree where
  /-- Each entry with its place.  An earlier entry hides a later one. -/
  entries : List (Place × FileEntry)
  deriving DecidableEq

/-- Where a walk ends. -/
inductive Arrival where
  /-- At something that is there and is no link. -/
  | found (place : Place)
  /-- In a directory that has nothing of this name, with `rest` still to come after it. -/
  | absent (directory : Place) (name : String) (rest : List String)
  deriving DecidableEq

/-- The names of a path.  Slashes next to each other, or at an end, leave empty names. -/
def pathNames (path : String) : List String :=
  path.splitOn "/"

/-- Where a path starts: the directory given, unless the path starts at the root. -/
def pathStart (path : String) (directory : Place) : Place :=
  if path.startsWith "/" then .root else directory

namespace FileTree

/-- No files. -/
def empty : FileTree :=
  ⟨[]⟩

/-- What stands at a place. -/
def entryAt? (tree : FileTree) (place : Place) : Option FileEntry :=
  if place.names.isEmpty then some .directory
  else (tree.entries.find? (·.1 = place)).map (·.2)

/-- How many links are followed on one walk. -/
def maxLinks : Nat := 40

/-- How many bytes a name may have. -/
def maxName : Nat := 255

/-- How many bytes a path may have. -/
def maxPath : Nat := 4095

/-- Follows names from a place, with `links` links still allowed. -/
def walk (tree : FileTree) (links : Nat) (place : Place) :
    List String → Except ReadFault Arrival
  | [] => .ok (.found place)
  | name :: rest =>
    if tree.entryAt? place ≠ some .directory then .error .notDirectory
    else if name = "" ∨ name = "." then tree.walk links place rest
    else if name = ".." then tree.walk links place.parent rest
    else if maxName < name.utf8ByteSize then .error .nameTooLong
    else
      match tree.entryAt? (place.child name) with
      | none => .ok (.absent place name rest)
      | some (.link target) =>
        match links with
        | 0 => .error .tooManyLinks
        | links + 1 => tree.walk links (pathStart target place) (pathNames target ++ rest)
      | some _ => tree.walk links (place.child name) rest
termination_by names => (links, names.length)

/-- The bytes of the file at a place. -/
def readPlace (tree : FileTree) (place : Place) : Except ReadFault (List UInt8) :=
  match tree.entryAt? place with
  | some (.file bytes) => .ok bytes
  | some .locked => .error .refused
  | some .directory => .error .directory
  | some (.link _) | none => .error .missing

/-- The bytes of the file that a path leads to. -/
def read (tree : FileTree) : FileReader := fun path =>
  if path.contains '\x00' then .error .zeroInName
  else if path = "" then .error .missing
  else if maxPath < path.utf8ByteSize then .error .nameTooLong
  else do
    match ← tree.walk maxLinks (pathStart path .working) (pathNames path) with
    | .found place => tree.readPlace place
    | .absent .. => .error .missing

end FileTree

end MonkeyTokens
