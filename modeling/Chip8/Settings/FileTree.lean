import Chip8.Settings.Directory

/-!
# Trees of files

Files are kept in a tree of directories, and a path is walked name by name: an empty name and `.`
stay, `..` goes up, and any other name goes down. Only a directory can be walked on from, so no path
leads through a file, whatever name comes behind it.

A path that begins with a slash is walked from the root, and any other path from the working
directory. A node is known by its way, the names on the way down to it from the root.
-/

namespace Chip8.Settings

/-- What a path may lead to. -/
inductive Node where
  /-- A directory. -/
  | directory
  /-- A file with what is in it. -/
  | file (bytes : ByteArray)

/-- The files that a program can reach. -/
structure FileTree where
  /-- Nodes and their ways. -/
  nodes : List (List String × Node)
  /-- The way to the working directory. -/
  working : List String

namespace FileTree

/-- What every system has in its root directory, the empty file `/dev/null` among it. -/
def system : List (List String × Node) :=
  (["dev", "null"], .file .empty) ::
    ["bin", "etc", "home", "lib", "proc", "sys", "tmp", "usr", "var"].map fun name =>
      ([name], .directory)

/-- The tree of a system with files in its working directory, given by their paths, which may have
empty names and `.` in them. -/
def ofFiles (working : List String) (files : List (String × ByteArray)) : FileTree where
  nodes := system ++ (working, .directory) :: files.map fun (path, bytes) =>
    (working ++ (path.splitOn "/").filter fun name => name ≠ "" && name ≠ ".", .file bytes)
  working := working

/-- The node at the end of a way. A directory that holds a node need not be listed itself. -/
def node? (t : FileTree) (way : List String) : Option Node :=
  match t.nodes.lookup way with
  | some node => some node
  | none => if way.isEmpty || t.nodes.any (way.isPrefixOf ·.1) then some .directory else none

/-- The bytes that a name may have. -/
def nameLimit : Nat := 255

/-- The bytes that a path may have. -/
def pathLimit : Nat := 4095

/-- The node that a name leads down to from a directory, with its own way. -/
def child? (t : FileTree) (way : List String) (name : String) : Option (List String × Node) :=
  (t.node? (way ++ [name])).map fun node => (way ++ [name], node)

/-- Goes on from a node by one name. The root is above itself. -/
def enter (t : FileTree) : List String × Node → String → Except ReadError (List String × Node)
  | (_, .file _), _ => .error .notDirectory
  | (way, .directory), name =>
    if name = "" ∨ name = "." then .ok (way, .directory)
    else if name = ".." then .ok (way.dropLast, .directory)
    else if nameLimit < name.utf8ByteSize then .error .nameTooLong
    else (t.child? way name).elim (.error .missing) .ok

/-- The way to the directory where the walk along a path starts. -/
def start (t : FileTree) (path : String) : List String :=
  if path.startsWith "/" then [] else t.working

/-- The node that a path leads to. -/
def walk (t : FileTree) (path : String) : Except ReadError Node :=
  ((path.splitOn "/").foldlM t.enter (t.start path, .directory)).map Prod.snd

/-- What is read at a path. -/
def read (t : FileTree) : Directory := fun path =>
  if path.any (· = '\x00') then .error .nulInPath
  else if path = "" then .error .missing
  else if pathLimit < path.utf8ByteSize then .error .nameTooLong
  else
    match t.walk path with
    | .error e => .error e
    | .ok .directory => .error .isDirectory
    | .ok (.file bytes) => .ok bytes

end FileTree

end Chip8.Settings
