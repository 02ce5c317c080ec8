import ScoreDesk.Check.Session
import ScoreDesk.CommandLine.Desk

namespace ScoreDesk.CommandLine

open Compile (Compiler)

structure Warning where
  message : String
  error : Option String
  deriving DecidableEq, Repr

def Warning.line (w : Warning) : String :=
  w.message ++ match w.error with
    | none => ""
    | some error => " error=" ++ error

def channelLine (line : String) : String :=
  line ++ " channel=\"compile\""

/-- Checks and compiles a file whenever it changes. `stamp` is the time of the change that was seen
    last, and `printed` counts the verdicts that were printed. -/
structure Watch where
  settings : Settings
  root : Path
  file : Path
  stamp : Nat
  session : Check.Session
  printed : Nat
  compiler : Compiler
  lasting : Option (Nat × Path)
  warnings : List Warning

namespace Watch

def warn (w : Watch) (message : String) (error : Option String) : Watch :=
  { w with warnings := w.warnings ++ [⟨message, error⟩] }

def start (settings : Settings) (root file : Path) (modified : Except FileError Nat)
    (tree : FileTree) : Except Failure Watch :=
  match modified with
  | .error e => .error (.ofFile "Cannot watch" file e)
  | .ok stamp =>
    let w : Watch := {
      settings
      root
      file
      stamp
      session := .start tree .structured settings.debounceMs
      printed := 0
      compiler := .ofSettings settings
      lasting := none
      warnings := [] }
    if settings.intellisenseEnabled then
      match Report.Document.load tree file with
      | .ok document => .ok { w with session := w.session.trigger document }
      | .error e => .error { message := e.message }
    else .ok (w.warn "intellisense is disabled; only compiling on change" none)

def triggerCheck (w : Watch) (tree : FileTree) : Watch :=
  if w.settings.intellisenseEnabled then
    match Report.Document.load tree w.file with
    | .ok document => { w with session := w.session.trigger document }
    | .error e => w.warn "cannot read watched file" e.message
  else w

def compile (w : Watch) (m : Machine) : Watch × Machine :=
  if w.settings.compileOnSave then
    match Compile.target m.tree .onSave w.file w.settings w.root with
    | .error e => (w.warn "not compiling" e.message, m)
    | .ok target =>
      let (run, compiler, m) := w.compiler.compile m target w.file
      let compiler := match w.lasting with
        | none => compiler
        | some (previous, target) => (compiler.complete previous target [] [] .killed).2
      let lasting := match run with
        | .lasts run => some (run, target)
        | .ended _ => none
      ({ w with compiler, lasting }, m)
  else (w, m)

def look (w : Watch) (modified : Except FileError Nat) (m : Machine) : Watch × Machine :=
  match modified with
  | .error e => (w.warn "cannot stat watched file" e.message, m)
  | .ok stamp =>
    if stamp = w.stamp then (w, m)
    else ({ w with stamp }.triggerCheck m.tree).compile m

def runCheck (w : Watch) (i : Nat) (document : Report.Document) (desk : Desk) : Watch × Desk :=
  let session := w.session.wake i
  let (result, machine) := (Check.Checker.ofSettings w.settings).check desk.machine document
  match result with
  | none => ({ w with session }, { desk with machine })
  | some result =>
    let session := { session with tree := machine.tree }.finish i result
    let desk := { desk with machine := { machine with tree := session.tree } }
    if w.printed = session.verdicts then ({ w with session }, desk)
    else
      let lines := (session.latest.map fun verdict => analysisLines verdict.analysis).getD []
      ({ w with session, printed := session.verdicts }, desk.printLines lines)

def pass (w : Watch) (ms : Nat) (desk : Desk) : Watch × Desk :=
  let w := { w with session := { w.session with now := w.session.now + ms } }
  match w.session.pendingJob? with
  | some (i, { document, stage := .waiting due, .. }) =>
    if due ≤ w.session.now then w.runCheck i document desk else (w, desk)
  | _ => (w, desk)

def interrupt (w : Watch) : Watch :=
  { w with session := w.session.close w.file, compiler := w.compiler.kill.2 }

end Watch

end ScoreDesk.CommandLine
