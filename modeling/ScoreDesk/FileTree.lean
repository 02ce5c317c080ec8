import ScoreDesk.Path
import ScoreDesk.Text.Utf8

namespace ScoreDesk

open Text (Bytes)

inductive FileError where
  | notFound
  | notADirectory
  | isADirectory
  | permissionDenied
  | invalidData
  | invalidInput
  | invalidFilename
  | invalidCall
  deriving DecidableEq, Repr

def FileError.message : FileError → String
  | notFound => "No such file or directory (os error 2)"
  | notADirectory => "Not a directory (os error 20)"
  | isADirectory => "Is a directory (os error 21)"
  | permissionDenied => "Permission denied (os error 13)"
  | invalidData => "stream did not contain valid UTF-8"
  | invalidInput => "file name contained an unexpected NUL byte"
  | invalidFilename => "File name too long (os error 36)"
  | invalidCall => "nul byte found in provided data"

inductive Node where
  | dir
  | file (content : Bytes)
  deriving DecidableEq, Repr

abbrev Place := List String

/-- Directories and files, and the directory that relative paths start from. There are no links and
    no access rights: whatever is in the tree can be read and listed. -/
structure FileTree where
  here : Place
  nodes : List (Place × Node)

namespace FileTree

def chain (place : Place) : List (Place × Node) :=
  (List.range place.length).map fun n => (place.take (n + 1), .dir)

def emptyAt (dir : Path) : FileTree :=
  let here := dir.components.filterMap fun
    | .name text => some text
    | _ => none
  { here, nodes := chain here }

def node? (tree : FileTree) (place : Place) : Option Node :=
  if place.isEmpty then some .dir else tree.nodes.lookup place

def maxPathBytes : Nat := 4095

def maxNameBytes : Nat := 255

def holdsNul (text : String) : Bool :=
  text.toList.contains '\x00'

/-- Follows components from a place; each of them but the last must lead to a directory. -/
def walk (tree : FileTree) : Place → List Component → Except FileError Place
  | place, [] => .ok place
  | place, component :: rest =>
    match tree.node? place with
    | none => .error .notFound
    | some (.file _) => .error .notADirectory
    | some .dir =>
      match component with
      | .root => tree.walk [] rest
      | .here => tree.walk place rest
      | .up => tree.walk place.dropLast rest
      | .name name =>
        if maxNameBytes < name.utf8ByteSize then .error .invalidFilename
        else tree.walk (place ++ [name]) rest

def place (tree : FileTree) (path : Path) : Except FileError Place :=
  if path.text.isEmpty then .error .notFound
  else if holdsNul path.text then .error .invalidInput
  else if maxPathBytes < path.text.utf8ByteSize then .error .invalidFilename
  else tree.walk tree.here path.components

def find (tree : FileTree) (path : Path) : Except FileError (Place × Node) := do
  let place ← tree.place path
  match tree.node? place with
  | none => .error .notFound
  | some (.file content) =>
    if path.demandsDirectory then .error .notADirectory else .ok (place, .file content)
  | some .dir => .ok (place, .dir)

def locate? (tree : FileTree) (path : Path) : Option Place :=
  (tree.find path).toOption.map (·.1)

def exists? (tree : FileTree) (path : Path) : Bool :=
  (tree.find path).toOption.isSome

def isFile (tree : FileTree) (path : Path) : Bool :=
  match tree.find path with
  | .ok (_, .file _) => true
  | _ => false

def isDir (tree : FileTree) (path : Path) : Bool :=
  match tree.find path with
  | .ok (_, .dir) => true
  | _ => false

def read (tree : FileTree) (path : Path) : Except FileError Bytes := do
  match ← tree.find path with
  | (_, .dir) => .error .isADirectory
  | (_, .file content) => .ok content

def readText (tree : FileTree) (path : Path) : Except FileError String := do
  match Text.Utf8.decode? (← tree.read path) with
  | some text => .ok text
  | none => .error .invalidData

def list (tree : FileTree) (path : Path) : Except FileError (List String) := do
  match ← tree.find path with
  | (_, .file _) => .error .notADirectory
  | (place, .dir) =>
    .ok (tree.nodes.filterMap fun (other, _) =>
      if other.dropLast = place ∧ other ≠ [] then other.getLast? else none)

def put (tree : FileTree) (place : Place) (node : Node) : FileTree :=
  if tree.nodes.any fun entry => entry.1 == place then
    { tree with nodes := tree.nodes.map fun entry =>
        if entry.1 = place then (place, node) else entry }
  else { tree with nodes := tree.nodes ++ [(place, node)] }

def putParents (tree : FileTree) (place : Place) : FileTree :=
  (List.range place.length).foldl (fun tree n =>
    match tree.node? (place.take n) with
    | none => tree.put (place.take n) .dir
    | some _ => tree) tree

def target (tree : FileTree) (path : Path) : Place :=
  path.components.foldl (fun place component =>
    match component with
    | .root => []
    | .here => place
    | .up => place.dropLast
    | .name name => place ++ [name]) tree.here

def write (tree : FileTree) (path : Path) (node : Node) : FileTree :=
  let place := tree.target path
  (tree.putParents place).put place node

def erase (tree : FileTree) (place : Place) : FileTree :=
  { tree with nodes := tree.nodes.filter fun entry => !place.isPrefixOf entry.1 }

def remove (tree : FileTree) (path : Path) : Except FileError FileTree := do
  match ← tree.find path with
  | (_, .dir) => .error .isADirectory
  | (place, .file _) => .ok (tree.erase place)

/-- Opens a file for writing at its end; a missing one is made. The path must end in the name of the
    file: a dot, two dots or a slash in its place can only stand for a directory. -/
def openAppend (tree : FileTree) (path : Path) : Except FileError (Place × FileTree) :=
  match path.lastWritten? with
  | some (.name _) => do
    let place ← tree.place path
    if path.text.toList.getLast? = some '/' then .error .isADirectory
    else match tree.node? place with
      | some .dir => .error .isADirectory
      | some (.file _) => .ok (place, tree)
      | none =>
        if tree.node? place.dropLast = some .dir then .ok (place, tree.put place (.file []))
        else .error .notFound
  | _ => do
    discard (tree.find path)
    .error .isADirectory

def append (tree : FileTree) (place : Place) (bytes : Bytes) : FileTree :=
  match tree.node? place with
  | some (.file content) => tree.put place (.file (content ++ bytes))
  | _ => tree

end FileTree

end ScoreDesk
