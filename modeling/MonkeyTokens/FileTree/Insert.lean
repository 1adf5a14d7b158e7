/-
How a tree of files grows.

A path under which something is put is followed as any path is, links and two dots
included, so what is put under a link's name may come to stand elsewhere.  Directories
that are missing on the way are made.  A directory may be there already; a file that is
there gets the new bytes, and one that may not be read stays so; a link must be new.
Whatever the file system would refuse leaves the tree as it was.
-/
import MonkeyTokens.FileTree.Walk

namespace MonkeyTokens.FileTree

/-- Puts an entry at a place, in front of what stood there. -/
def put (tree : FileTree) (place : Place) (entry : FileEntry) : FileTree :=
  ⟨(place, entry) :: tree.entries⟩

/-- Enters the directory that a name leads to.  Where nothing has the name, makes it. -/
def enter? (tree : FileTree) (place : Place) (name : String) : Option (FileTree × Place) :=
  match tree.walk maxLinks place [name] with
  | .ok (.found next) =>
    if tree.entryAt? next = some .directory then some (tree, next) else none
  | .ok (.absent ..) =>
    match tree.entryAt? (place.child name) with
    | none => some (tree.put (place.child name) .directory, place.child name)
    | some _ => none
  | .error _ => none

/-- Enters one directory after another. -/
def enterAll? (tree : FileTree) (place : Place) (names : List String) :
    Option (FileTree × Place) :=
  names.foldlM (fun (tree, place) name => tree.enter? place name) (tree, place)

/-- Writes a file under a name in a directory: the file that the name leads to, or a new one
where it leads to nothing. -/
def write? (tree : FileTree) (directory : Place) (name : String) (file : FileEntry) :
    Option FileTree :=
  match tree.walk maxLinks directory [name] with
  | .ok (.found place) =>
    match tree.entryAt? place with
    | some (.file _) => some (tree.put place file)
    | some .locked => some tree
    | _ => none
  | .ok (.absent directory name []) => some (tree.put (directory.child name) file)
  | _ => none

/-- Makes a link of a new name in a directory. -/
def link? (tree : FileTree) (directory : Place) (name target : String) : Option FileTree :=
  if name ∈ ["", ".", ".."] ∨ (tree.entryAt? (directory.child name)).isSome then none
  else some (tree.put (directory.child name) (.link target))

/-- Puts an entry under a path, unless that is refused. -/
def insert? (tree : FileTree) (path : String) (entry : FileEntry) : Option FileTree := do
  let start := pathStart path .working
  let names := pathNames path
  match entry with
  | .directory => return (← tree.enterAll? start names).1
  | .link target =>
    let (tree, directory) ← tree.enterAll? start names.dropLast
    tree.link? directory (← names.getLast?) target
  | file =>
    let (tree, directory) ← tree.enterAll? start names.dropLast
    tree.write? directory (← names.getLast?) file

/-- Puts an entry under a path.  What is refused changes nothing. -/
def insert (tree : FileTree) (path : String) (entry : FileEntry) : FileTree :=
  (tree.insert? path entry).getD tree

end MonkeyTokens.FileTree
