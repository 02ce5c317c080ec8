import ScoreDesk.Text.Utf8
import ScoreDesk.Transport.Monitor

namespace ScoreDesk.Interactive

open Text (Bytes)
open Transport (Device Monitor Operation Status)

structure Prompt where
  input : Bytes
  printed : String
  deriving DecidableEq, Repr

namespace Prompt

def ofInput (input : Bytes) : Prompt := ⟨input, ""⟩

def question (total : String) : String :=
  "Start time (m:ss, file is " ++ total ++ "): "

def ask (p : Prompt) (total : String) : Option String × Prompt :=
  let printed := p.printed ++ question total
  match Text.Stream.readLine? p.input with
  | none => (none, { p with printed })
  | some (line, rest) => ((Text.Utf8.decode? line).map Text.trimmed, ⟨rest, printed⟩)

end Prompt

inductive Command where
  | toggle
  | stop
  | quit
  deriving DecidableEq, Repr

def help : String := "commands: p = pause/resume, s = stop, q = quit"

def Command.parse (text : String) : Except String Command :=
  let word := Text.lower (Text.trimmed text)
  if ["p", "pause", "resume", "play"].contains word then .ok .toggle
  else if ["s", "stop"].contains word then .ok .stop
  else if ["q", "quit", "exit"].contains word then .ok .quit
  else .error ("unknown command `" ++ word ++ "` (" ++ help ++ ")")

inductive End where
  | quit
  | finished
  deriving DecidableEq, Repr

/-- What a console is doing: it waits for commands and news, or a command waits to see the state of
    the transport, or its operation waits for the transport; or it has ended. -/
inductive Stage where
  | waiting
  | deciding (command : Command)
  | acting (command : Command) (operation : Operation)
  | ended (why : End)

/-- Drives a monitor by commands that are typed. `heard` is the start of a line that is not
    complete, `seen` the number of outcomes that have been looked at, and `lines` is what was
    written. -/
structure Console (World Engine : Type) where
  monitor : Monitor World Engine
  source : Path
  heard : Bytes
  reading : Bool
  seen : Nat
  stage : Stage
  lines : List String

namespace Console

variable {World Engine : Type}

def start (monitor : Monitor World Engine) (source : Path) : Console World Engine :=
  { monitor
    source
    heard := []
    reading := true
    seen := monitor.publications
    stage := .waiting
    lines := [] }

def isOver (c : Console World Engine) : Bool :=
  match c.stage with
  | .ended _ => true
  | _ => false

def write (c : Console World Engine) (line : String) : Console World Engine :=
  { c with lines := c.lines ++ [Text.trimmedEnd line] }

def hear (c : Console World Engine) (line : String) : Console World Engine :=
  match c.stage with
  | .waiting =>
    if (Text.trimmed line).isEmpty then c
    else match Command.parse line with
      | .ok command => { c with stage := .deciding command }
      | .error text => c.write text
  | _ => c

def stopReading (c : Console World Engine) : Console World Engine :=
  match c.stage with
  | .waiting => { c with reading := false }
  | _ => c

def operation? (source : Path) (status : Status) : Command → Option Operation
  | .toggle => some (if status = .playing then .pause else .resume source)
  | .stop => some .stop
  | .quit => if status = .idle then none else some .stop

def settle (c : Console World Engine) (command : Command) : Console World Engine :=
  { c with stage := if command = .quit then .ended .quit else .waiting }

def judge (c : Console World Engine) : Console World Engine :=
  match c.stage with
  | .deciding command =>
    match operation? c.source c.monitor.deck.state.status command with
    | some op => { c with monitor := c.monitor.prepare op, stage := .acting command op }
    | none => c.settle command
  | _ => c

def act (d : Device World Engine) (tree : FileTree) (c : Console World Engine) :
    Console World Engine :=
  match c.stage with
  | .acting command op =>
    match c.monitor.perform d tree op with
    | (.ok (), monitor) => { c with monitor }.settle command
    | (.error e, monitor) => ({ c with monitor }.write e.message).settle command
  | _ => c

def hasNews (c : Console World Engine) : Bool :=
  c.seen != c.monitor.publications

def look (c : Console World Engine) : Console World Engine :=
  match c.stage with
  | .waiting =>
    if c.hasNews then
      let c := { c with seen := c.monitor.publications }
      match c.monitor.published with
      | .progress timestamp => c.write timestamp
      | .ended => { c.write "Playback finished" with stage := .ended .finished }
      | .paused => c.write "Paused"
      | .idle => c.write "Stopped"
    else c
  | _ => c

def obey (d : Device World Engine) (tree : FileTree) (c : Console World Engine) (line : String) :
    Console World Engine :=
  (c.hear line).judge.act d tree

/-- What comes first of what happens at one instant: a look that is due or what is typed, and news
    or the line with a number. -/
structure Precedence where
  look : Bool
  news : Nat → Bool

/-- Hears the complete lines among these octets, each with its line feed; a line that is not UTF-8
    ends the reading. -/
def obeyLines (d : Device World Engine) (tree : FileTree) (newsFirst : Nat → Bool) :
    Nat → Console World Engine → List Bytes → Console World Engine
  | _, c, [] => c
  | n, c, line :: rest =>
    let c := if newsFirst n then c.look else c
    if c.reading then
      match Text.Utf8.decode? line with
      | some line => obeyLines d tree newsFirst (n + 1) (c.obey d tree line) rest
      | none => c.stopReading
    else c

def beat (d : Device World Engine) (c : Console World Engine) : Console World Engine :=
  match c.monitor.nextLook? (c.monitor.now + 1) with
  | none => c
  | some (i, time) => { c with monitor := c.monitor.lookAt d i time }

/-- What is typed at this instant is heard, line by line. News that is left is read when time
    passes. -/
def attend (d : Device World Engine) (tree : FileTree) (first : Precedence)
    (c : Console World Engine) (lines : List Bytes) : Console World Engine :=
  obeyLines d tree first.news 0 (if first.look then c.beat d else c) lines

def receive (d : Device World Engine) (tree : FileTree) (first : Precedence)
    (c : Console World Engine) (bytes : Bytes) : Console World Engine :=
  let pieces := Text.splitAt Text.Stream.lineFeed (c.heard ++ bytes)
  { c with heard := (pieces.getLast?).getD [] }.attend d tree first pieces.dropLast

def close (d : Device World Engine) (tree : FileTree) (first : Precedence)
    (c : Console World Engine) : Console World Engine :=
  ({ c with heard := [] }.attend d tree first (if c.heard.isEmpty then [] else [c.heard])).stopReading

/-- Lets time pass up to an instant, and looks at every outcome when it comes. What is due at that
    very instant is still to come. -/
def passUntil (d : Device World Engine) (limit : Nat) : Nat → Console World Engine →
    Console World Engine
  | 0, c => { c with monitor := c.monitor.waitUntil limit }
  | fuel + 1, c =>
    match c.stage with
    | .ended _ => c
    | _ =>
      match c.monitor.nextLook? limit with
      | none => { c with monitor := c.monitor.waitUntil limit }
      | some (i, time) =>
        passUntil d limit fuel { c with monitor := c.monitor.lookAt d i time }.look

def pass (d : Device World Engine) (late : Nat → Bool) (limit : Nat) (c : Console World Engine) :
    Console World Engine :=
  if c.isOver then c
  else passUntil d limit (limit + 1) { c with monitor := c.monitor.settle d late }.look

end Console

end ScoreDesk.Interactive
