import ScoreDesk.Report.Diagnostic

namespace ScoreDesk.Report

/-- The diagnostics that are shown, file by file in the order of the paths. A file keeps the
    spelling under which it first came. -/
structure Board where
  files : List (Path × List Diagnostic)
  deriving DecidableEq, Repr

namespace Board

def empty : Board := ⟨[]⟩

instance : Inhabited Board := ⟨empty⟩

def alter (file : Path) (change : List Diagnostic → List Diagnostic) :
    List (Path × List Diagnostic) → List (Path × List Diagnostic)
  | [] => [(file, change [])]
  | (p, shown) :: rest =>
    match file.compare p with
    | .lt => (file, change []) :: (p, shown) :: rest
    | .eq => (p, change shown) :: rest
    | .gt => (p, shown) :: alter file change rest

def set (b : Board) (file : Path) (diagnostics : List Diagnostic) : Board :=
  ⟨alter file (fun _ => diagnostics) b.files⟩

def append (b : Board) (diagnostic : Diagnostic) : Board :=
  ⟨alter diagnostic.file (· ++ [diagnostic]) b.files⟩

def get? (b : Board) (file : Path) : Option (List Diagnostic) :=
  (b.files.find? fun entry => entry.1.same file).map (·.2)

def get (b : Board) (file : Path) : List Diagnostic :=
  (b.get? file).getD []

def delete (b : Board) (file : Path) : Board :=
  ⟨b.files.filter fun entry => !entry.1.same file⟩

def clear (_ : Board) : Board := empty

def size (b : Board) : Nat :=
  b.files.length

def total (b : Board) : Nat :=
  (b.files.flatMap (·.2)).length

def replaceWith (b : Board) (a : Analysis) : Board :=
  a.diagnostics.foldl append b.clear

def ofAnalysis (a : Analysis) : Board :=
  a.diagnostics.foldl append empty

end Board

end ScoreDesk.Report
