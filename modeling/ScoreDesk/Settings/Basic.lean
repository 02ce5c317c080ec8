import ScoreDesk.Path
import ScoreDesk.Text.Line

namespace ScoreDesk

inductive SettingKind where
  | text
  | flag
  | count
  deriving DecidableEq, Repr

abbrev SettingKind.Value : SettingKind → Type
  | text => String
  | flag => Bool
  | count => Nat

inductive SettingGroup where
  | general
  | compilation
  | intellisense
  | midiInput
  | midiPlayback
  | telemetry
  deriving DecidableEq, Repr

inductive Setting where
  | lilypondPath
  | additionalArgs
  | mainFile
  | compileMainFileOnSave
  | compileOnSave
  | intellisenseEnabled
  | debounceMs
  | midiInput
  | accidentals
  | relativeMode
  | chordMode
  | midiOutput
  | pollIntervalMs
  | logLevel
  deriving DecidableEq, Repr

namespace SettingGroup

def name : SettingGroup → String
  | general => "general"
  | compilation => "compilation"
  | intellisense => "intellisense"
  | midiInput => "midi_input"
  | midiPlayback => "midi_playback"
  | telemetry => "telemetry"

def all : List SettingGroup :=
  [general, compilation, intellisense, midiInput, midiPlayback, telemetry]

def settings : SettingGroup → List Setting
  | general => [.lilypondPath]
  | compilation => [.additionalArgs, .mainFile, .compileMainFileOnSave, .compileOnSave]
  | intellisense => [.intellisenseEnabled, .debounceMs]
  | midiInput => [.midiInput, .accidentals, .relativeMode, .chordMode]
  | midiPlayback => [.midiOutput, .pollIntervalMs]
  | telemetry => [.logLevel]

end SettingGroup

namespace Setting

def group : Setting → SettingGroup
  | lilypondPath => .general
  | additionalArgs | mainFile | compileMainFileOnSave | compileOnSave => .compilation
  | intellisenseEnabled | debounceMs => .intellisense
  | midiInput | accidentals | relativeMode | chordMode => .midiInput
  | midiOutput | pollIntervalMs => .midiPlayback
  | logLevel => .telemetry

def key : Setting → String
  | lilypondPath => "lilypond_path"
  | additionalArgs => "additional_args"
  | mainFile => "main_file"
  | compileMainFileOnSave => "compile_main_file_on_save"
  | compileOnSave => "compile_on_save"
  | intellisenseEnabled => "enabled"
  | debounceMs => "debounce_ms"
  | midiInput => "input"
  | accidentals => "accidentals"
  | relativeMode => "relative_mode"
  | chordMode => "chord_mode"
  | midiOutput => "output"
  | pollIntervalMs => "poll_interval_ms"
  | logLevel => "log_level"

def kind : Setting → SettingKind
  | lilypondPath | additionalArgs | mainFile | midiInput | accidentals | midiOutput | logLevel =>
    .text
  | compileMainFileOnSave | compileOnSave | intellisenseEnabled | relativeMode | chordMode => .flag
  | debounceMs | pollIntervalMs => .count

abbrev Value (s : Setting) : Type := s.kind.Value

def default : (s : Setting) → s.Value
  | lilypondPath => "lilypond"
  | additionalArgs => ""
  | mainFile => ""
  | compileMainFileOnSave => true
  | compileOnSave => true
  | intellisenseEnabled => true
  | debounceMs => (500 : Nat)
  | midiInput => ""
  | accidentals => "sharps"
  | relativeMode => false
  | chordMode => false
  | midiOutput => ""
  | pollIntervalMs => (100 : Nat)
  | logLevel => "info"

def all : List Setting :=
  SettingGroup.all.flatMap SettingGroup.settings

theorem mem_all (s : Setting) : s ∈ all := by
  cases s <;> decide

end Setting

structure Settings where
  value : (s : Setting) → s.Value

namespace Settings

def default : Settings := ⟨Setting.default⟩

instance : Inhabited Settings := ⟨default⟩

def set (settings : Settings) (s : Setting) (v : s.Value) : Settings :=
  ⟨fun t => if h : s = t then h ▸ v else settings.value t⟩

@[simp] theorem value_set_self (settings : Settings) (s : Setting) (v : s.Value) :
    (settings.set s v).value s = v := by
  simp [set]

theorem value_set_of_ne (settings : Settings) {s t : Setting} (v : s.Value) (h : s ≠ t) :
    (settings.set s v).value t = settings.value t := by
  simp [set, h]

theorem ext {a b : Settings} (same : ∀ s, a.value s = b.value s) : a = b := by
  cases a; cases b; congr; exact funext same

def lilypondPath (s : Settings) : Path := ⟨s.value .lilypondPath⟩
def compileMainFileOnSave (s : Settings) : Bool := s.value .compileMainFileOnSave
def compileOnSave (s : Settings) : Bool := s.value .compileOnSave
def intellisenseEnabled (s : Settings) : Bool := s.value .intellisenseEnabled
def debounceMs (s : Settings) : Nat := s.value .debounceMs
def accidentals (s : Settings) : String := s.value .accidentals
def relativeMode (s : Settings) : Bool := s.value .relativeMode
def chordMode (s : Settings) : Bool := s.value .chordMode
def pollIntervalMs (s : Settings) : Nat := s.value .pollIntervalMs
def logLevel (s : Settings) : String := s.value .logLevel

def preference (text : String) : Option String :=
  let text := Text.trimmed text
  if text.isEmpty then none else some text

def additionalArgs (s : Settings) : List String :=
  let text : String := s.value .additionalArgs
  (Text.words text.toList).map .ofList

def mainFile? (s : Settings) : Option String := preference (s.value .mainFile)
def midiInput? (s : Settings) : Option String := preference (s.value .midiInput)
def midiOutput? (s : Settings) : Option String := preference (s.value .midiOutput)

end Settings

end ScoreDesk
