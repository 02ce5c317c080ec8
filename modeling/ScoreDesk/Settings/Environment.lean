import ScoreDesk.Settings.Layer

namespace ScoreDesk

/-- The variables in the order of the environment, and the home directory that the account has, if
    it is known. -/
structure Environment where
  entries : List (String × String)
  account : Option Path := none

namespace Environment

def homeDirectory? (env : Environment) : Option Path :=
  (((env.entries.lookup "HOME").filter (!·.isEmpty)).map Path.mk).or env.account

def configDirectory? (env : Environment) : Option Path :=
  env.homeDirectory?.map fun home =>
    (((env.entries.lookup "XDG_CONFIG_HOME").map Path.mk).filter (·.isAbsolute)).getD
      (home.join ⟨".config"⟩)

/-- The value that a name stands for. An entry is a text with an equals sign between its name and
    its value, and any of its equals signs may end the name that is asked for. -/
def value? (env : Environment) (name : String) : Option String :=
  if name.isEmpty then none
  else env.entries.findSome? fun (key, text) =>
    ((name ++ "=").toList.isPrefixOf? (key ++ "=" ++ text).toList).map .ofList

/-- Replaces a home directory or a variable at the start of a path. One that is not known is left
    as it stands. -/
def expand (env : Environment) (path : String) : Path :=
  match path.toList with
  | '~' :: '/' :: rest =>
    match env.homeDirectory? with
    | some home => home.join ⟨.ofList rest⟩
    | none => ⟨path⟩
  | '$' :: rest =>
    match Text.splitOnce '/' rest with
    | some (name, behind) =>
      match env.value? (.ofList name) with
      | some value => Path.join ⟨value⟩ ⟨.ofList behind⟩
      | none => ⟨path⟩
    | none => ⟨(env.value? (.ofList rest)).getD path⟩
  | _ => ⟨path⟩

end Environment

def overridden? (name : String) : Option Setting :=
  match name with
  | "LILYCTL_LILYPOND_PATH" => some .lilypondPath
  | "LILYCTL_ADDITIONAL_ARGS" => some .additionalArgs
  | "LILYCTL_MAIN_FILE" => some .mainFile
  | "LILYCTL_INTELLISENSE" => some .intellisenseEnabled
  | "LILYCTL_DEBOUNCE_MS" => some .debounceMs
  | "LILYCTL_MIDI_INPUT" => some .midiInput
  | "LILYCTL_ACCIDENTALS" => some .accidentals
  | "LILYCTL_CHORD_MODE" => some .chordMode
  | "LILYCTL_RELATIVE_MODE" => some .relativeMode
  | "LILYCTL_MIDI_OUTPUT" => some .midiOutput
  | "LILYCTL_LOG_LEVEL" => some .logLevel
  | "RUST_LOG" => some .logLevel
  | _ => none

def flagWord? (text : String) : Option Bool :=
  let word := Text.lower (Text.trimmed text)
  if ["1", "true", "yes", "on"].contains word then some true
  else if ["0", "false", "no", "off"].contains word then some false
  else none

def SettingKind.parse? : (k : SettingKind) → String → Option k.Value
  | .text, s => some s
  | .flag, s => flagWord? s
  | .count, s => Text.signedNatBelow? countLimit (Text.trim s.toList)

def Setting.parse? (env : Environment) : (s : Setting) → String → Option s.Value
  | .lilypondPath, text => some (env.expand text).text
  | s, text => s.kind.parse? text

namespace Settings

def override? (env : Environment) (settings : Settings) (name text : String) : Option Settings := do
  let s ← overridden? name
  return settings.set s (← s.parse? env text)

def overrideAll (env : Environment) (settings : Settings) :
    List (String × String) → Settings × List String
  | [] => (settings, [])
  | (name, text) :: rest =>
    match settings.override? env name text with
    | some settings =>
      let (settings, names) := settings.overrideAll env rest
      (settings, name :: names)
    | none => settings.overrideAll env rest

end Settings

structure Sources where
  files : List Path
  overrides : List String
  deriving DecidableEq, Repr

def systemConfig : Path := ⟨"/etc/lilyctl/config.toml"⟩

def localConfig : Path := ⟨"lilyctl.toml"⟩

def Environment.userConfig? (env : Environment) : Option Path :=
  env.configDirectory?.map (·.join ⟨"lilyctl/config.toml"⟩)

/-- The configuration files that exist, in the order in which they are laid over each other. A file
    named by the user stands in for the local one. -/
def configFiles (tree : FileTree) (env : Environment) (named : Option Path) : List Path :=
  (systemConfig :: env.userConfig?.toList).filter tree.exists? ++
    match named.filter tree.exists? with
    | some path => [path]
    | none => [localConfig].filter tree.exists?

def FileTree.herePath (tree : FileTree) : Path :=
  ⟨"/" ++ "/".intercalate tree.here⟩

def Sources.workspaceRoot (sources : Sources) (tree : FileTree) (env : Environment) : Path :=
  let own := sources.files.reverse.find? fun file =>
    !file.same systemConfig && !env.userConfig?.any file.same
  match own.bind Path.parent? with
  | none => tree.herePath
  | some dir =>
    if dir.text.isEmpty then tree.herePath
    else if dir.isAbsolute then dir
    else tree.herePath.join dir

/-- The effective settings: defaults, then files, then variables. The path of the compiler is
    expanded last. -/
def Settings.load (tree : FileTree) (env : Environment) (named : Option Path) :
    Except LoadError (Settings × Sources) := do
  let files := configFiles tree env named
  let settings ← loadLayers tree files
  let (settings, overrides) := settings.overrideAll env env.entries
  let path := env.expand settings.lilypondPath.text
  return (settings.set .lilypondPath path.text, ⟨files, overrides⟩)

end ScoreDesk
