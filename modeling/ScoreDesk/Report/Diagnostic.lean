import ScoreDesk.Report.Document
import ScoreDesk.Report.Grouped

namespace ScoreDesk.Report

structure Position where
  line : Nat
  character : Nat
  deriving DecidableEq, Repr

structure Span where
  start : Position
  stop : Position
  deriving DecidableEq, Repr

structure Diagnostic where
  file : Path
  span : Span
  severity : Severity
  message : String
  deriving DecidableEq, Repr

def Diagnostic.display (d : Diagnostic) : String :=
  s!"{d.file}:{d.span.start.line + 1}:{d.span.stop.character + 1}: " ++ d.severity.word ++ ": " ++
    d.message

def standardInput : String := "-"

namespace Record

def span (r : Record) : Span := ⟨⟨r.line, 0⟩, ⟨r.line, r.column⟩⟩

/-- Places a record in a file: the standard input is the document itself, a file that the document
    includes is shown on the line of the include, and any other file must exist. -/
def resolve (tree : FileTree) (document : Document) (r : Record) : Except ReportError Diagnostic :=
  if r.file = standardInput then .ok ⟨document.path, r.span, r.severity, r.message⟩
  else match document.includeLine? r.file with
    | some line =>
      let name := (Path.fileName? ⟨r.file⟩).getD r.file
      .ok ⟨document.path, ⟨⟨line, 0⟩, ⟨line + 1, 0⟩⟩, r.severity,
        name ++ s!":{r.line + 1}: " ++ r.message⟩
    | none =>
      let path : Path := ⟨r.file⟩
      if path.isAbsolute then
        if tree.exists? path then
          let file := if Document.sameFile tree document.path path then document.path else path
          .ok ⟨file, r.span, r.severity, r.message⟩
        else .error (.unresolvablePath r.file)
      else
        let path := document.dir.join path
        if tree.exists? path then .ok ⟨path, r.span, r.severity, r.message⟩
        else .error (.unresolvablePath r.file)

end Record

structure Analysis where
  records : List Record
  diagnostics : List Diagnostic
  dropped : List ReportError
  deriving DecidableEq, Repr

namespace Analysis

def hasErrors (a : Analysis) : Bool :=
  a.diagnostics.any (·.severity = .error)

def ofOutput (tree : FileTree) (document : Document) (strategy : Strategy) (output : String) :
    Analysis :=
  let reading := read strategy output
  let placed := reading.records.map (·.resolve tree document)
  { records := reading.records
    diagnostics := placed.filterMap fun
      | .ok diagnostic => some diagnostic
      | .error _ => none
    dropped := reading.errors ++ placed.filterMap fun
      | .ok _ => none
      | .error e => some e }

end Analysis

end ScoreDesk.Report
