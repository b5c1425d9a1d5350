import Equirec.CommandLine

/-!
# Files by path

A file tree is a directory held in memory: the bytes of its files by their paths. It stands in for
the directory in which the command is run. A path is followed name by name, and every name but the
last has to lead to a directory. Above the tree there are only directories, of which nothing else
is known.
-/
namespace Equirec

/-- A directory: the bytes of its files, each with the names on its path. -/
structure FileTree where
  /-- The files. -/
  files : List (List String × ByteArray)

namespace FileTree

/-- A place to which a path can lead. -/
inductive Place where
  /-- The place in the tree to which the names lead. -/
  | inside (names : List String)
  /-- A directory that the tree lies in. -/
  | above
  deriving DecidableEq

/-- What stands at a place. -/
inductive Entry where
  /-- A file with its bytes. -/
  | file (bytes : ByteArray)
  /-- A directory. -/
  | directory

/-- The tree with the given files, each at its path without dots. -/
def ofFiles (files : List (String × ByteArray)) : FileTree :=
  ⟨files.map fun (path, bytes) => ((path.splitOn "/").filter fun n => n != "" && n != ".", bytes)⟩

/-- What stands at a place. The tree itself is a directory, and so is every place above a file. -/
def entryAt? (tree : FileTree) : Place → Option Entry
  | .above => some .directory
  | .inside names =>
    match tree.files.find? fun file => file.1 == names with
    | some (_, bytes) => some (.file bytes)
    | none =>
      if names.isEmpty || tree.files.any fun file => names.isPrefixOf file.1 then some .directory
      else none

/-- The directory that a place lies in. -/
def Place.parent : Place → Place
  | .above => .above
  | .inside [] => .above
  | .inside names => .inside names.dropLast

/-- The place of a name in the directory at a place. What stands above the tree beside the way down
to it is not known, so a name leads nowhere from there. -/
def Place.child (name : String) : Place → Except ReadFailure Place
  | .above => .error .missing
  | .inside names => .ok (.inside (names ++ [name]))

/-- Follows one name of a path from a place: a dot stays, two dots go up, any other name goes
down. -/
def follow (tree : FileTree) (place : Place) (name : String) : Except ReadFailure Place :=
  match tree.entryAt? place with
  | none => .error .missing
  | some (.file _) => .error .notDirectory
  | some .directory =>
    if name = "" || name = "." then .ok place
    else if name = ".." then .ok place.parent
    else place.child name

/-- Reads the file at a path. A path that begins with a slash starts above the tree. -/
def read (tree : FileTree) (path : String) : Except ReadFailure ByteArray := do
  let start := if path.startsWith "/" then .above else .inside []
  let place ← (path.splitOn "/").foldlM tree.follow start
  match tree.entryAt? place with
  | none => throw .missing
  | some .directory => throw .directory
  | some (.file bytes) => return bytes

/-- How the command ends in a directory, or nothing when its arguments are not what it can take. -/
def run (tree : FileTree) (arguments : List String) : Option Exit := do
  let request ← Request.ofArguments? arguments
  return request.answer (tree.read request.file)

end FileTree

end Equirec
