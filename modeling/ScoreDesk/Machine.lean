import ScoreDesk.Midi.System
import ScoreDesk.Settings.Environment

namespace ScoreDesk

open Text (Bytes)

structure Call where
  args : List String
  directory : Place
  input : String
  deriving DecidableEq, Repr

/-- What a program does. It writes and ends, without an exit code when a signal ends it; or it lasts
    until it is killed. -/
inductive Conduct where
  | ends (stdout stderr : Bytes) (code : Option Nat)
  | lasts
  deriving DecidableEq, Repr

abbrev Program := Call → FileTree → Conduct × FileTree

structure Machine where
  tree : FileTree
  environment : Environment
  midi : Midi.System
  programs : List (Place × Program)
  calls : List Call

namespace Machine

def programAt (m : Machine) (tree : FileTree) (path : Path) : Except FileError Program := do
  match ← tree.find path with
  | (_, .dir) => .error .permissionDenied
  | (place, .file _) =>
    match m.programs.lookup place with
    | some program => .ok program
    | none => .error .permissionDenied

/-- The worse of two reasons why a search goes on: that a program may not be run outweighs all that
    was met later, else the last one counts. -/
def worse : FileError → FileError → FileError
  | .permissionDenied, _ => .permissionDenied
  | _, last => last

def search (m : Machine) (tree : FileTree) (name : Path) (failure : FileError) :
    List Path → Except FileError Program
  | [] => .error failure
  | dir :: rest =>
    match m.programAt tree (dir.join name) with
    | .ok program => .ok program
    | .error .invalidFilename => .error .invalidFilename
    | .error e => m.search tree name (worse failure e) rest

def searchPath (m : Machine) : List Path :=
  match m.environment.entries.lookup "PATH" with
  | none => []
  | some text => (Text.splitAt ':' text.toList).map fun dir => ⟨.ofList dir⟩

def findProgram (m : Machine) (tree : FileTree) (name : Path) : Except FileError Program :=
  if name.text.isEmpty then .error .notFound
  else if name.text.toList.contains '/' then m.programAt tree name
  else m.search tree name .notFound m.searchPath

def startPlace (m : Machine) (directory : Path) : Except FileError Place := do
  match ← m.tree.find directory with
  | (place, .dir) => .ok place
  | (_, .file _) => .error .notADirectory

def launch (m : Machine) (name directory : Path) (args : List String) (input : String) :
    Except FileError Conduct × Machine :=
  if ([name.text, directory.text] ++ args).any FileTree.holdsNul then (.error .invalidCall, m)
  else match m.startPlace directory with
  | .error e => (.error e, m)
  | .ok place =>
    match m.findProgram { m.tree with here := place } name with
    | .error e => (.error e, m)
    | .ok program =>
      let call : Call := ⟨args, place, input⟩
      let (conduct, tree) := program call m.tree
      (.ok conduct, { m with tree, calls := m.calls ++ [call] })

end Machine

end ScoreDesk
