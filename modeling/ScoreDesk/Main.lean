import ScoreDesk.CommandLine.Lookup
import ScoreDesk.CommandLine.Run

namespace ScoreDesk.Main

open CommandLine (Desk Progress Watch)

def nodeAt? (path : Path) : IO (Option Node) := do
  try
    let content ← IO.FS.readBinFile path.text
    return some (.file content.toList)
  catch
    | .inappropriateType .. => return some .dir
    | _ => return none

def survey (tree : FileTree) (path : Path) : IO FileTree := do
  match ← nodeAt? path with
  | some node => return tree.write path node
  | none => return (tree.remove path).toOption.getD tree

def textAt (path : Path) : IO String := do
  match ← nodeAt? path with
  | some (.file content) => return Text.Utf8.decode content
  | _ => return ""

def readEnvironment : IO Environment := do
  let number := accountOf? (← textAt ⟨"/proc/self/status"⟩)
  let accounts ← textAt ⟨"/etc/passwd"⟩
  let entries := entriesOf (← textAt ⟨"/proc/self/environ"⟩)
  return { entries, account := number.bind (homeOf? · accounts) }

def readMachine (args : List String) : IO Machine := do
  let environment ← readEnvironment
  let directory ← IO.currentDir
  let tree ← (CommandLine.pathsOf environment args).foldlM survey (.emptyAt ⟨toString directory⟩)
  let tree ← (CommandLine.mainPath? tree environment args).toList.foldlM survey tree
  return { tree, environment, midi := .absent, programs := [], calls := [] }

def stampOf (tree : FileTree) (path : Path) : Except FileError Nat := do
  match ← tree.find path with
  | (_, .file content) => return (hash content).toNat
  | (_, .dir) => return 0

def emit (desk : Desk) : IO Desk := do
  IO.print desk.stdout
  IO.eprint desk.stderr
  return { desk with stdout := "", stderr := "" }

def watchPeriod : Nat := 250

partial def keepWatching (w : Watch) (desk : Desk) : IO Unit := do
  let desk := desk.noteLines (w.compiler.lines.map CommandLine.channelLine)
  let desk ← emit (desk.noteLines (w.warnings.map (·.line)))
  let w := { w with compiler := { w.compiler with lines := [] }, warnings := [] }
  IO.sleep watchPeriod.toUInt32
  let tree ← survey desk.machine.tree w.file
  let (w, machine) := w.look (stampOf tree w.file) { desk.machine with tree }
  let (w, desk) := w.pass watchPeriod { desk with machine }
  keepWatching w desk

def runCommand (args : List String) : IO UInt32 := do
  let machine ← readMachine args
  let (progress, desk) := CommandLine.run (stampOf machine.tree) args (.start machine [])
  match progress with
  | .watching w => keepWatching w desk
  | _ => pure ()
  let (code, desk) := progress.conclude desk
  discard (emit desk)
  return code.toUInt32

end ScoreDesk.Main

def main (args : List String) : IO UInt32 :=
  ScoreDesk.Main.runCommand args
