import ScoreDesk.CommandLine.Arguments
import ScoreDesk.CommandLine.LogFilter
import ScoreDesk.CommandLine.Watch
import ScoreDesk.Interactive.Console
import ScoreDesk.Keyboard.Session
import ScoreDesk.Midi.Input
import ScoreDesk.Transport.Studio

namespace ScoreDesk.CommandLine

open Compile (Compiler)
open Transport (Deck Monitor Operation Studio)

/-- What a command has come to. It is over; or the compiler lasts; or it goes on with what it
    watches, plays, or listens to. -/
inductive Progress where
  | ended (outcome : Outcome)
  | refused (why : Refusal)
  | compiling (compiler : Compiler) (run : Nat) (target : Path)
  | checking
  | watching (watch : Watch)
  | playing (console : Interactive.Console Studio Nat)
  | listening (session : Keyboard.Session) (append : Option Path)

def Progress.fail (f : Failure) : Progress := .ended (.error f)

def Progress.done : Progress := .ended (.ok ())

def versionLine : String := "lilyctl 0.1.0"

def reportCompile (desk : Desk) (report : Compile.Report) : Outcome × Desk :=
  match report.outcome with
  | .succeeded => (.ok (), desk)
  | .killed => (.error { message := "Compilation process killed" }, desk)
  | .failed code =>
    let desk := match Report.Document.load desk.machine.tree report.target with
      | .ok document =>
        desk.printLines (analysisLines
          (.ofOutput desk.machine.tree document .structured report.stderr))
      | .error _ => desk
    let behind := match code with
      | some code => s!" (exit code {code})"
      | none => ""
    (.error { message := "Compilation failed" ++ behind }, desk)

def compile (settings : Settings) (root : Path) (file : Option Path) (mode : Compile.Mode)
    (desk : Desk) : Progress × Desk :=
  match Compile.target desk.machine.tree mode file settings root with
  | .error e => (.fail (.ofCompile e), desk)
  | .ok target =>
    let saved := if mode = .onSave then file else none
    let (run, compiler, machine) :=
      (Compiler.ofSettings settings).compile desk.machine target saved
    match run with
    | .lasts run => (.compiling compiler run target, { desk with machine })
    | .ended result =>
      let desk := { desk with machine }.noteLines compiler.lines
      match result with
      | .error e => (.fail (.ofCompile e), desk)
      | .ok report =>
        let (outcome, desk) := reportCompile desk report
        (.ended outcome, desk)

def interruptCompile (compiler : Compiler) (run : Nat) (target : Path) (desk : Desk) :
    Outcome × Desk :=
  let (report, compiler) := compiler.kill.2.complete run target [] [] .killed
  reportCompile (desk.noteLines compiler.lines) report

def check (settings : Settings) (file : Path) (grouped json : Bool) (desk : Desk) :
    Progress × Desk :=
  let strategy : Report.Strategy := if grouped then .grouped else .structured
  match Report.Document.load desk.machine.tree file with
  | .error e => (.fail (.ofFile "Failed to read" file e), desk)
  | .ok document =>
    let (result, machine) := (Check.Checker.ofSettings settings).check desk.machine document
    match result with
    | none => (.checking, { desk with machine })
    | some result =>
      let started := Check.Session.start machine.tree strategy settings.debounceMs
      let session := (started.begin document).settle result
      let desk := { desk with machine := { machine with tree := session.tree } }
      match session.latest with
      | none => (.fail { message := s!"Intellisense check failed for {file}" }, desk)
      | some verdict =>
        let lines := if json then [Report.Json.diagnostics verdict.analysis.diagnostics]
          else analysisLines verdict.analysis
        (.ended (verdictOf file verdict.analysis), desk.printLines lines)

def watch (settings : Settings) (root file : Path) (modified : Except FileError Nat) (desk : Desk) :
    Progress × Desk :=
  match Watch.start settings root file modified desk.machine.tree with
  | .error f => (.fail f, desk)
  | .ok w => (.watching w, desk)

def midiIn (settings : Settings) (device : Option String) (append : Option Path)
    (chord relative flats : Bool) (desk : Desk) : Progress × Desk :=
  match Keyboard.Settings.ofConfiguration settings with
  | .error e => (.fail { message := e.message }, desk)
  | .ok configured =>
    let input := Midi.Input.ofPattern (device.or settings.midiInput?)
    match input.start desk.machine.midi with
    | (.error e, _) => (.fail { message := e.message }, desk)
    | (.ok (), input) =>
      let desk := desk.note ("Listening on " ++ input.opened.getD "MIDI input" ++
        " (Ctrl-C to stop)")
      let keyboard : Keyboard.Settings :=
        { accidentals := if flats then .flats else configured.accidentals
          relative := configured.relative || relative
          chords := configured.chords || chord }
      match append.map (desk.machine.tree.openAppend ·) with
      | some (.error e) => (.fail (.ofFile "Failed to open" (append.getD ⟨""⟩) e), desk)
      | _ => (.listening (.start keyboard) append, desk)

def deviceLines (label : String) (names : List String) : List String :=
  (label ++ ":") ::
    if names.isEmpty then ["  (none)"]
    else names.zipIdx.map fun (name, index) => s!"  {index}: " ++ name

def devices (desk : Desk) : Progress × Desk :=
  match desk.machine.midi.deviceNames .input with
  | .error e => (.fail { message := e.message }, desk)
  | .ok inputs =>
    let desk := desk.printLines (deviceLines "MIDI inputs" inputs)
    match desk.machine.midi.deviceNames .output with
    | .error e => (.fail { message := e.message }, desk)
    | .ok outputs => (.done, desk.printLines (deviceLines "MIDI outputs" outputs))

def play (settings : Settings) (file : Path) (startAt : Option String) (desk : Desk) :
    Progress × Desk :=
  let tree := desk.machine.tree
  let studio : Studio := ⟨tree, desk.machine.midi, settings.midiOutput?, 0, []⟩
  let monitor : Monitor Studio Nat := .start studio settings.pollIntervalMs
  let cued := monitor.deck.cue Studio.device tree file
  let total := Transport.display cued.2.state.durationMs
  let asked := match startAt, cued.1 with
    | some answer, .ok () => (Text.trimmed answer).isEmpty
    | _, _ => false
  let (answer, prompt) := (Interactive.Prompt.ofInput desk.input).ask total
  let desk := if asked then
      { desk with input := prompt.input, stderr := desk.stderr ++ prompt.printed }
    else desk
  let operation : Operation := match startAt with
    | none => .play file
    | some text => .playFrom file fun _ => if asked then answer else some text
  match monitor.run Studio.device tree operation with
  | (.error e, _) => (.fail { message := e.message }, desk)
  | (.ok (), monitor) => (.playing (.start monitor file), desk.note Interactive.help)

def version (settings : Settings) (desk : Desk) : Progress × Desk :=
  let desk := desk.print versionLine
  let (result, machine) := (Compiler.ofSettings settings).version desk.machine
  let desk := { desk with machine }
  match result with
  | none => (.checking, desk)
  | some (.error e) => (.fail (.ofCompile e), desk)
  | some (.ok line) => (.done, desk.print line)

def config (settings : Settings) (sources : Sources) (root : Path) (desk : Desk) :
    Progress × Desk :=
  let desk := if sources.files.isEmpty then desk.print "# no config files found, using defaults"
    else desk
  let desk := desk.printLines (sources.files.map fun file => s!"# loaded: {file}")
  let desk := desk.printLines (sources.overrides.map ("# override: " ++ ·))
  let desk := desk.printLines [s!"# workspace root: {root}", ""]
  (.done, { desk with stdout := desk.stdout ++ settings.toText })

def runRequest (settings : Settings) (sources : Sources) (modified : Path → Except FileError Nat)
    (request : Request) (desk : Desk) : Progress × Desk :=
  let root := sources.workspaceRoot desk.machine.tree desk.machine.environment
  match request with
  | .compile file mode => compile settings root file mode desk
  | .check file grouped json => check settings file grouped json desk
  | .watch file => watch settings root file (modified file) desk
  | .midiIn device append chord relative flats =>
    midiIn settings device append chord relative flats desk
  | .devices => devices desk
  | .play file startAt => play settings file startAt desk
  | .version => version settings desk
  | .config => config settings sources root desk

def run (modified : Path → Except FileError Nat) (args : List String) (desk : Desk) :
    Progress × Desk :=
  match parse args with
  | .error why => (.refused why, desk)
  | .ok invocation =>
    let environment := desk.machine.environment
    match Settings.load desk.machine.tree environment invocation.config with
    | .error e => (.fail (.ofLoad e), desk)
    | .ok (settings, sources) =>
      let directives :=
        logDirectives (environment.entries.lookup "RUST_LOG") invocation.verbose settings.logLevel
      let desk := desk.noteLines (filterWarning? directives).toList
      runRequest settings sources modified invocation.request desk

def Refusal.conclude (why : Refusal) (desk : Desk) : Nat × Desk :=
  match why with
  | usage => (2, desk.noteLines synopsis)
  | help => (0, desk.printLines synopsis)
  | version => (0, desk.print versionLine)

namespace Progress

def interrupt (p : Progress) (desk : Desk) : Progress × Desk :=
  match p with
  | compiling compiler run target =>
    let (outcome, desk) := interruptCompile compiler run target desk
    (.ended outcome, desk)
  | watching w => (.watching w.interrupt, desk)
  | playing c =>
    (.playing { c with monitor := (c.monitor.run Studio.device desk.machine.tree .reset).2 }, desk)
  | other => (other, desk)

def conclude (p : Progress) (desk : Desk) : Nat × Desk :=
  match p with
  | ended (.error f) => (1, { desk with stderr := desk.stderr ++ f.text })
  | refused why => why.conclude desk
  | _ => (0, desk)

end Progress

end ScoreDesk.CommandLine
