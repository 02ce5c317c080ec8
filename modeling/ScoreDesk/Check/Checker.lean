import ScoreDesk.Compile.Target
import ScoreDesk.Machine
import ScoreDesk.Report.Board

namespace ScoreDesk.Check

open Compile (CompileError checkArgs)
open Report (Document)

def temporaryName : Path := ⟨"-.tmp"⟩

def temporaryPlace? (tree : FileTree) (dir : Path) : Option Place :=
  match tree.find dir with
  | .ok (place, .dir) => some (place ++ [temporaryName.text])
  | _ => none

/-- The compiler writes its temporary file where it runs, unless a directory has that name. -/
def leaveTemporary (tree : FileTree) (dir : Path) : FileTree :=
  match temporaryPlace? tree dir with
  | some place => if tree.node? place = some .dir then tree else tree.put place (.file [])
  | none => tree

def removeTemporary (tree : FileTree) (dir : Path) : Except FileError (Bool × FileTree) :=
  match tree.remove (dir.join temporaryName) with
  | .ok tree => .ok (true, tree)
  | .error .notFound => .ok (false, tree)
  | .error e => .error e

def tidy (tree : FileTree) (dir : Path) : FileTree :=
  match removeTemporary tree dir with
  | .ok (_, tree) => tree
  | .error _ => tree

structure Checker where
  program : Path
  additional : List String
  deriving DecidableEq, Repr

namespace Checker

def ofSettings (settings : Settings) : Checker :=
  ⟨settings.lilypondPath, settings.additionalArgs⟩

/-- What the compiler writes about a document that it reads from its standard input. There is no
    answer from a compiler that lasts. -/
def check (c : Checker) (m : Machine) (document : Document) :
    Option (Except CompileError String) × Machine :=
  match m.launch c.program document.dir (checkArgs c.additional) document.text with
  | (.error e, m) => (some (.error (.ofLaunch c.program e)), m)
  | (.ok .lasts, m) => (none, m)
  | (.ok (.ends _ stderr _), m) => (some (.ok (Text.Utf8.decode stderr)), m)

end Checker

end ScoreDesk.Check
