import ScoreDesk.Compile.Slot
import ScoreDesk.Compile.Target
import ScoreDesk.Machine
import ScoreDesk.Report.Structured
import ScoreDesk.Text.Utf8

namespace ScoreDesk.Compile

open Text (Bytes)

inductive Outcome where
  | succeeded
  | failed (code : Option Nat)
  | killed
  deriving DecidableEq, Repr

namespace Outcome

def ofCode (code : Option Nat) : Outcome :=
  if code = some 0 then succeeded else failed code

def lines : Outcome → List String
  | succeeded => ["Compilation successful"]
  | failed _ => ["Compilation failed"]
  | killed => []

end Outcome

structure Report where
  target : Path
  outcome : Outcome
  stderr : String
  deriving DecidableEq, Repr

def collect (lines : List String) : String :=
  String.join (lines.map (· ++ "\n"))

def openingLines (saved : Option Path) (target : Path) : List String :=
  (saved.map fun path => s!"[SAVED]: {path}").toList ++ [s!"Compiling: {target}"]

def messageLines (stderr : String) : List String :=
  (Report.readStructured stderr).records.map (·.logLine)

def runLines (stdout stderr : Bytes) (outcome : Outcome) : List String :=
  let heard := Text.Stream.textLines stderr
  Text.Stream.textLines stdout ++ heard ++ messageLines (collect heard) ++ outcome.lines

structure Compiler where
  program : Path
  additional : List String
  slot : Slot
  lines : List String
  deriving Repr

namespace Compiler

def ofSettings (settings : Settings) : Compiler :=
  ⟨settings.lilypondPath, settings.additionalArgs, .empty, []⟩

def say (c : Compiler) (lines : List String) : Compiler :=
  { c with lines := c.lines ++ lines.map Text.trimmedEnd }

def start (c : Compiler) (target : Path) (saved : Option Path) : Nat × Compiler :=
  let (run, slot) := c.slot.number
  (run, { c with slot := slot.install run }.say (openingLines saved target))

def launch (c : Compiler) (m : Machine) (target : Path) :
    Except CompileError Conduct × Machine :=
  let args := compileArgs c.additional target
  let (result, m) := m.launch c.program (workingDirectory target) args ""
  (result.mapError (.ofLaunch c.program), m)

def fail (c : Compiler) (run : Nat) (error : CompileError) : Compiler :=
  { c with slot := c.slot.finish run }.say ["Compilation failed: " ++ error.message]

def complete (c : Compiler) (run : Nat) (target : Path) (stdout stderr : Bytes)
    (outcome : Outcome) : Report × Compiler :=
  let said := c.say (runLines stdout stderr outcome)
  (⟨target, outcome, collect (Text.Stream.textLines stderr)⟩,
    { said with slot := said.slot.finish run })

def kill (c : Compiler) : Bool × Compiler :=
  match c.slot.kill with
  | (true, slot) => (true, { c with slot }.say ["Compilation process killed"])
  | (false, _) => (false, c)

inductive Run where
  | ended (result : Except CompileError Report)
  | lasts (run : Nat)

def compile (c : Compiler) (m : Machine) (target : Path) (saved : Option Path) :
    Run × Compiler × Machine :=
  let (run, c) := c.start target saved
  match c.launch m target with
  | (.error e, m) => (.ended (.error e), c.fail run e, m)
  | (.ok .lasts, m) => (.lasts run, c, m)
  | (.ok (.ends stdout stderr code), m) =>
    let (report, c) := c.complete run target stdout stderr (.ofCode code)
    (.ended (.ok report), c, m)

def version (c : Compiler) (m : Machine) : Option (Except CompileError String) × Machine :=
  match m.launch c.program ⟨"."⟩ ["-v"] "" with
  | (.error e, m) => (some (.error (.ofLaunch c.program e)), m)
  | (.ok .lasts, m) => (none, m)
  | (.ok (.ends stdout _ _), m) =>
    let lines := (Text.lines (Text.Utf8.decode stdout).toList).map Text.trim
    match lines.find? fun line => !line.isEmpty with
    | some line => (some (.ok (.ofList line)), m)
    | none => (some (.error (.noVersion c.program)), m)

end Compiler

end ScoreDesk.Compile
