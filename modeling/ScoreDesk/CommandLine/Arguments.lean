import ScoreDesk.Compile.Target
import ScoreDesk.Text.Line

namespace ScoreDesk.CommandLine

inductive Flag where
  | config
  | verbose
  | help
  | version
  | specific
  | onSave
  | grouped
  | json
  | device
  | append
  | chord
  | relative
  | flats
  | startAt
  deriving DecidableEq, Repr

inductive Need where
  | nothing
  | value
  | maybeValue
  deriving DecidableEq, Repr

namespace Flag

def long : Flag → String
  | config => "config"
  | verbose => "verbose"
  | help => "help"
  | version => "version"
  | specific => "specific"
  | onSave => "on-save"
  | grouped => "grouped"
  | json => "json"
  | device => "port"
  | append => "append"
  | chord => "chord"
  | relative => "relative"
  | flats => "flats"
  | startAt => "from"

def short? : Flag → Option Char
  | config => some 'c'
  | verbose => some 'v'
  | help => some 'h'
  | version => some 'V'
  | device => some 'p'
  | append => some 'a'
  | _ => none

def need : Flag → Need
  | config | device | append => .value
  | startAt => .maybeValue
  | _ => .nothing

def isPath : Flag → Bool
  | config | append => true
  | _ => false

def shared : List Flag := [config, verbose, help]

end Flag

inductive Verb where
  | compile
  | check
  | watch
  | midiIn
  | devices
  | play
  | version
  | config
  | help
  deriving DecidableEq, Repr

namespace Verb

def all : List Verb := [compile, check, watch, midiIn, devices, play, version, config, help]

def word : Verb → String
  | compile => "compile"
  | check => "check"
  | watch => "watch"
  | midiIn => "midi-in"
  | devices => "devices"
  | play => "play"
  | version => "version"
  | config => "config"
  | help => "help"

def flags : Verb → List Flag
  | compile => [.specific, .onSave]
  | check => [.grouped, .json]
  | midiIn => [.device, .append, .chord, .relative, .flats]
  | play => [.startAt]
  | _ => []

def takesFile : Verb → Bool
  | compile | check | watch | play => true
  | _ => false

def ofWord? (text : String) : Option Verb :=
  all.find? fun verb => verb.word == text

end Verb

inductive Item where
  | flag (flag : Flag) (value : Option String)
  | operand (text : String)
  | bad
  deriving DecidableEq, Repr

def flush : Option Flag → List Item
  | none => []
  | some flag => if flag.need = .value then [.bad] else [.flag flag none]

def readLong (flags : List Flag) (body : List Char) : List Item × Option Flag :=
  let (name, value) : List Char × Option String := match Text.splitOnce '=' body with
    | some (name, value) => (name, some (.ofList value))
    | none => (body, none)
  match flags.find? fun flag => flag.long.toList == name, value with
  | none, _ => ([.bad], none)
  | some flag, none => if flag.need = .nothing then ([.flag flag none], none) else ([], some flag)
  | some flag, some value =>
    if flag.need = .nothing then ([.bad], none) else ([.flag flag (some value)], none)

def readShort (flags : List Flag) : List Char → List Item × Option Flag
  | [] => ([], none)
  | c :: rest =>
    match flags.find? fun flag => flag.short? == some c with
    | none => ([.bad], none)
    | some flag =>
      if flag.need = .nothing then
        let (items, pending) := readShort flags rest
        (.flag flag none :: items, pending)
      else match rest with
        | [] => ([], some flag)
        | '=' :: value => ([.flag flag (some (.ofList value))], none)
        | value => ([.flag flag (some (.ofList value))], none)

/-- Reads arguments, with a flag that may still get its value. With `halting` it stops at the first
    that is no flag and no value. -/
def scan (flags : List Flag) (halting : Bool) : Option Flag → List String → List Item × List String
  | pending, [] => (flush pending, [])
  | pending, arg :: rest =>
    match arg.toList with
    | ['-', '-'] => (flush pending ++ rest.map .operand, [])
    | '-' :: '-' :: body =>
      let (read, next) := readLong flags body
      let (items, left) := scan flags halting next rest
      (flush pending ++ read ++ items, left)
    | '-' :: c :: body =>
      let (read, next) := readShort flags (c :: body)
      let (items, left) := scan flags halting next rest
      (flush pending ++ read ++ items, left)
    | _ =>
      match pending with
      | some flag =>
        let (items, left) := scan flags halting none rest
        (.flag flag (some arg) :: items, left)
      | none =>
        if halting then ([], arg :: rest)
        else
          let (items, left) := scan flags halting none rest
          (.operand arg :: items, left)

inductive Refusal where
  | usage
  | help
  | version
  deriving DecidableEq, Repr

structure Given where
  flags : List (Flag × Option String)
  file : Option Path
  deriving DecidableEq, Repr

namespace Given

def nothing : Given := ⟨[], none⟩

def has (g : Given) (flag : Flag) : Bool :=
  g.flags.any fun entry => entry.1 = flag

def value? (g : Given) (flag : Flag) : Option String :=
  (g.flags.lookup flag).join

def add (takesFile : Bool) (g : Given) : Item → Except Refusal Given
  | .bad => .error .usage
  | .flag .help _ => .error .help
  | .flag .version _ => .error .version
  | .flag flag value =>
    if g.has flag then .error .usage
    else if flag.isPath && value == some "" then .error .usage
    else .ok { g with flags := g.flags ++ [(flag, value)] }
  | .operand text =>
    if takesFile && g.file.isNone && !text.isEmpty then .ok { g with file := some ⟨text⟩ }
    else .error .usage

def ofItems (takesFile : Bool) (items : List Item) : Except Refusal Given :=
  items.foldlM (add takesFile) nothing

end Given

inductive Request where
  | compile (file : Option Path) (mode : Compile.Mode)
  | check (file : Path) (grouped json : Bool)
  | watch (file : Path)
  | midiIn (device : Option String) (append : Option Path) (chord relative flats : Bool)
  | devices
  | play (file : Path) (startAt : Option String)
  | version
  | config
  deriving DecidableEq, Repr

structure Invocation where
  config : Option Path
  verbose : Bool
  request : Request
  deriving DecidableEq, Repr

def Given.needFile (g : Given) : Except Refusal Path :=
  match g.file with
  | some file => .ok file
  | none => .error .usage

def Given.request (g : Given) : Verb → Except Refusal Request
  | .compile =>
    if g.has .specific && g.has .onSave then .error .usage
    else .ok (.compile g.file
      (if g.has .specific then .specific else if g.has .onSave then .onSave else .onCommand))
  | .check => do return .check (← g.needFile) (g.has .grouped) (g.has .json)
  | .watch => do return .watch (← g.needFile)
  | .midiIn =>
    .ok (.midiIn (g.value? .device) ((g.value? .append).map Path.mk) (g.has .chord)
      (g.has .relative) (g.has .flats))
  | .devices => .ok .devices
  | .play => do
    let startAt := if g.has .startAt then some ((g.value? .startAt).getD "") else none
    return .play (← g.needFile) startAt
  | .version => .ok .version
  | .config => .ok .config
  | .help => .error .help

def isHelpTopic : List String → Bool
  | [] => true
  | [word] => (Verb.ofWord? word).isSome
  | _ => false

/-- What the arguments ask for. Flags for all requests may stand before the command or behind it,
    and the path of the latter counts. -/
def parse (args : List String) : Except Refusal Invocation := do
  let (items, rest) := scan (.version :: Flag.shared) true none args
  let before ← Given.ofItems false items
  match rest with
  | [] => .error .usage
  | word :: rest =>
    match Verb.ofWord? word with
    | none => .error .usage
    | some .help => .error (if isHelpTopic rest then .help else .usage)
    | some verb =>
      let (items, _) := scan (verb.flags ++ Flag.shared) false none rest
      let given ← Given.ofItems verb.takesFile items
      let config := (given.value? .config).or (before.value? .config)
      return ⟨config.map Path.mk, before.has .verbose || given.has .verbose, ← given.request verb⟩

def Verb.synopsis (verb : Verb) : String :=
  let file := if verb = .compile then " [FILE]" else if verb.takesFile then " FILE" else ""
  "  " ++ verb.word ++ file ++ String.join (verb.flags.map fun flag => " [--" ++ flag.long ++ "]")

def synopsis : List String :=
  ["Usage: lilyctl [--config PATH] [--verbose] COMMAND", "", "Commands:"] ++
    Verb.all.map Verb.synopsis

end ScoreDesk.CommandLine
