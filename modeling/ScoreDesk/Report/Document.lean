import ScoreDesk.FileTree
import ScoreDesk.Report.Record
import ScoreDesk.Text.Line

namespace ScoreDesk.Report

structure Document where
  path : Path
  text : String
  deriving DecidableEq, Repr

namespace Document

def load (tree : FileTree) (path : Path) : Except FileError Document := do
  return ⟨path, ← tree.readText path⟩

def dir (d : Document) : Path :=
  d.path.dirOrHere

/-- Whether two paths lead to the same file; paths that lead nowhere are compared as paths. -/
def sameFile (tree : FileTree) (p q : Path) : Bool :=
  match tree.locate? p, tree.locate? q with
  | some a, some b => a == b
  | _, _ => p.same q

def quotesName (name : List Char) (s : List Char) : Bool :=
  (name ++ ['\x22']).isPrefixOf s || behindSlash s
where
  behindSlash : List Char → Bool
    | [] => false
    | c :: rest =>
      if c = '\x22' ∨ c = '\n' then false
      else ((c = '/' ∨ c = '\x5c') && (name ++ ['\x22']).isPrefixOf rest) || behindSlash rest

def includeWord : List Char := '\x5c' :: "include".toList

def includesAt (name s : List Char) : Bool :=
  includeWord.isPrefixOf s &&
    match (s.drop includeWord.length).dropWhile Text.isBlank with
    | '\x22' :: quoted => quotesName name quoted
    | _ => false

def findInclude? (name : List Char) : List Char → Option Nat
  | [] => none
  | c :: rest =>
    if includesAt name (c :: rest) then some 0
    else (findInclude? name rest).map (· + if c = '\n' then 1 else 0)

/-- The line of the include that names the reported file. Directories before the name count on
    neither side. -/
def includeLine? (d : Document) (reported : String) : Option Nat := do
  let name ← Path.fileName? ⟨reported⟩
  let line ← findInclude? name.toList d.text.toList
  if line < positionLimit then some line else none

end Document

end ScoreDesk.Report
