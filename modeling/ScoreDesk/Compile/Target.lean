import ScoreDesk.FileTree
import ScoreDesk.Settings.Basic

namespace ScoreDesk.Compile

inductive CompileError where
  | notLilypond (path : Path)
  | noDocument
  | mainFileMissing (path : Path)
  | lilypondNotFound (program : Path)
  | spawn (program : Path) (error : FileError)
  | noVersion (program : Path)
  | file (error : FileError)
  deriving DecidableEq, Repr

namespace CompileError

def message : CompileError → String
  | notLilypond path => s!"Only LilyPond files are supported: {path}"
  | noDocument => "No file to compile: pass a file or set compilation.main_file"
  | mainFileMissing path =>
    s!"Unable to find main file to compile: file does not exist ({path})"
  | lilypondNotFound program =>
    "LilyPond not found at `" ++ program.text ++ "`; set general.lilypond_path"
  | spawn program error => s!"Failed to run {program}: " ++ error.message
  | noVersion program => "Can't get LilyPond version from `" ++ program.text ++ "`"
  | file error => error.message

def cause? : CompileError → Option String
  | spawn _ error => some error.message
  | _ => none

def ofLaunch (program : Path) : FileError → CompileError
  | .notFound => lilypondNotFound program
  | error => spawn program error

end CompileError

/-- What asks for a compilation: a save, a command, or a command for exactly this file. -/
inductive Mode where
  | onSave
  | onCommand
  | specific
  deriving DecidableEq, Repr

def Mode.usesMainFile (settings : Settings) : Mode → Bool
  | onSave => settings.compileMainFileOnSave
  | onCommand => true
  | specific => false

def lilypondExtensions : List String := ["ly", "ily", "lyi"]

def isLilypond (path : Path) : Bool :=
  path.extension?.any fun extension => lilypondExtensions.contains (Text.lower extension)

def target (tree : FileTree) (mode : Mode) (document : Option Path) (settings : Settings)
    (root : Path) : Except CompileError Path :=
  match document.filter fun path => !isLilypond path with
  | some path => .error (.notLilypond path)
  | none =>
    match settings.mainFile?.filter fun _ => mode.usesMainFile settings with
    | some name =>
      let path := root.join ⟨name⟩
      if tree.exists? path then .ok path else .error (.mainFileMissing path)
    | none =>
      match document with
      | some path => .ok path
      | none => .error .noDocument

def logLevelArg : String := "--loglevel=WARNING"

def compileArgs (additional : List String) (target : Path) : List String :=
  [logLevelArg] ++ additional ++ [target.text]

/-- The arguments of a check, which reads the score from the standard input and writes nothing but a
    MIDI file that is named after it. They stand behind those of the user and so win. -/
def checkArgs (additional : List String) : List String :=
  additional ++ [logLevelArg, "--define-default=backend=null", "-dmidi-extension=tmp", "-"]

def workingDirectory (path : Path) : Path :=
  path.dirOrHere

end ScoreDesk.Compile
