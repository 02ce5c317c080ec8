import ScoreDesk.Compile.Compiler
import ScoreDesk.Machine
import ScoreDesk.Report.Json

namespace ScoreDesk.CommandLine

open Text (Bytes)

structure Desk where
  machine : Machine
  input : Bytes
  stdout : String
  stderr : String

structure Failure where
  message : String
  cause : Option String := none
  deriving DecidableEq, Repr

namespace Failure

def ofFile (what : String) (path : Path) (e : FileError) : Failure :=
  ⟨what ++ " " ++ path.text, some e.message⟩

def ofCompile (e : Compile.CompileError) : Failure :=
  ⟨e.message, e.cause?⟩

def ofLoad (e : LoadError) : Failure :=
  ⟨e.message, e.cause?⟩

def text (f : Failure) : String :=
  "Error: " ++ f.message ++ "\n" ++
    match f.cause with
    | none => ""
    | some cause => "\nCaused by:\n    " ++ cause ++ "\n"

end Failure

abbrev Outcome := Except Failure Unit

namespace Desk

def start (machine : Machine) (input : Bytes) : Desk := ⟨machine, input, "", ""⟩

def print (d : Desk) (line : String) : Desk :=
  { d with stdout := d.stdout ++ line ++ "\n" }

def printLines (d : Desk) (lines : List String) : Desk :=
  lines.foldl print d

def note (d : Desk) (line : String) : Desk :=
  { d with stderr := d.stderr ++ line ++ "\n" }

def noteLines (d : Desk) (lines : List String) : Desk :=
  lines.foldl note d

end Desk

def analysisLines (a : Report.Analysis) : List String :=
  if a.diagnostics.isEmpty then ["No problems found"] else a.diagnostics.map (·.display)

def verdictOf (file : Path) (a : Report.Analysis) : Outcome :=
  if a.hasErrors then .error { message := s!"{file} has errors" } else .ok ()

end ScoreDesk.CommandLine
