import ScoreDesk.FileTree
import ScoreDesk.Settings.Basic
import ScoreDesk.Toml.Document

namespace ScoreDesk

def countLimit : Nat := 18446744073709551616

def SettingKind.decode? : (k : SettingKind) → Toml.Value → Option k.Value
  | .text, .text s => some s
  | .text, .time s => some s
  | .flag, .flag b => some b
  | .count, .integer n => if 0 ≤ n ∧ n < countLimit then some n.toNat else none
  | _, _ => none

inductive Said (α : Type) where
  | nothing
  | value (v : α)
  | wrong

namespace Setting

def decodeField (s : Setting) : Option Toml.Value → Said s.Value
  | none => .nothing
  | some v =>
    match s.kind.decode? v with
    | some v => .value v
    | none => .wrong

def inGroup (s : Setting) : Toml.Value → Said s.Value
  | .table entries => s.decodeField (entries.lookup s.key)
  | .array items =>
    if s.group.settings.length < items.length then .wrong
    else s.decodeField ((s.group.settings.zip items).lookup s)
  | _ => .wrong

def inTable (s : Setting) (table : Toml.Table) : Said s.Value :=
  match table.lookup s.group.name with
  | none => .nothing
  | some v => s.inGroup v

def isWrong (s : Setting) (table : Toml.Table) : Bool :=
  match s.inTable table with
  | .wrong => true
  | _ => false

end Setting

namespace Settings

/-- The settings of a document; what it does not say has its default. A value of the wrong type
    spoils the document, a key that is no setting does not. -/
def ofTable? (table : Toml.Table) : Option Settings :=
  if Setting.all.any (·.isWrong table) then none
  else some ⟨fun s => match s.inTable table with
    | .value v => v
    | _ => s.default⟩

def ofValue? : Toml.Value → Option Settings
  | .table groups => ofTable? groups
  | .array groups =>
    if SettingGroup.all.length < groups.length then none
    else ofTable? ((SettingGroup.all.map (·.name)).zip groups)
  | _ => none

end Settings

inductive LoadError where
  | unreadable (path : Path) (error : FileError)
  | invalid (path : Path)
  deriving DecidableEq, Repr

def LoadError.message : LoadError → String
  | unreadable path error => s!"Failed to read config file {path}: " ++ error.message
  | invalid path => s!"Failed to parse config file {path}"

def LoadError.cause? : LoadError → Option String
  | unreadable _ error => some error.message
  | invalid _ => none

def loadLayer (tree : FileTree) (path : Path) : Except LoadError Toml.Table :=
  match tree.readText path with
  | .error e => .error (.unreadable path e)
  | .ok text =>
    match Toml.read? text with
    | none => .error (.invalid path)
    | some table =>
      if (Settings.ofTable? table).isSome then .ok table else .error (.invalid path)

def loadLayers (tree : FileTree) (paths : List Path) : Except LoadError Settings := do
  let tables ← paths.mapM (loadLayer tree)
  match Settings.ofTable? (tables.foldl Toml.Table.merge []) with
  | some settings => return settings
  | none => .error (.invalid ((paths.getLast?).getD ⟨""⟩))

def SettingKind.write (form : List Char → Toml.QuoteForm) : (k : SettingKind) → k.Value → String
  | .text, s => .ofList (Toml.Quoted.encode (form s.toList) s.toList)
  | .flag, b => if b then "true" else "false"
  | .count, n => toString n

namespace Settings

variable (form : List Char → Toml.QuoteForm)

def settingLine (settings : Settings) (s : Setting) : String :=
  s.key ++ " = " ++ s.kind.write form (settings.value s) ++ "\n"

def groupText (settings : Settings) (g : SettingGroup) : String :=
  "[" ++ g.name ++ "]\n" ++ String.join (g.settings.map (settings.settingLine form))

def toTextIn (settings : Settings) : String :=
  "# lilyctl configuration\n\n" ++
    "\n".intercalate (SettingGroup.all.map (settings.groupText form))

def toText (settings : Settings) : String :=
  settings.toTextIn Toml.Quoted.form

end Settings

end ScoreDesk
