import ScoreDesk.Path
import ScoreDesk.Text.Line
import ScoreDesk.Text.Digit

namespace ScoreDesk.Report

inductive Severity where
  | error
  | warning
  deriving DecidableEq, Repr, Inhabited

namespace Severity

def word : Severity → String
  | error => "error"
  | warning => "warning"

def label : Severity → String
  | error => "ERROR"
  | warning => "WARNING"

def ofTag (tag : String) : Severity :=
  if Text.trimmed tag = "warning" then warning else error

end Severity

/-- One message of the compiler. Lines and columns count from 0, and `raw` is the text that the
    message was read from. -/
structure Record where
  file : String
  line : Nat
  column : Nat
  severity : Severity
  message : String
  raw : String
  deriving DecidableEq, Repr

namespace Record

def ofReported (file : String) (line column : Nat) (severity : Severity) (message raw : String) :
    Record :=
  ⟨file, line - 1, column - 1, severity, message, raw⟩

def logLine (r : Record) : String :=
  r.severity.label ++ ": " ++ r.raw

end Record

inductive Defect where
  | positionOutOfRange
  | emptyGroup
  | noPosition
  | noFile
  | lineOutOfRange
  | columnOutOfRange
  deriving DecidableEq, Repr

def Defect.reason : Defect → String
  | positionOutOfRange => "position out of range"
  | emptyGroup => "empty group"
  | noPosition => "no line:column position"
  | noFile => "no file name before the position"
  | lineOutOfRange => "line number out of range"
  | columnOutOfRange => "column number out of range"

inductive ReportError where
  | unresolvablePath (path : String)
  | malformedGroup (anchor : String) (defect : Defect)
  deriving DecidableEq, Repr

def ReportError.message : ReportError → String
  | unresolvablePath path => "cannot resolve `" ++ path ++ "` to a file"
  | malformedGroup anchor defect => "malformed message `" ++ anchor ++ "`: " ++ defect.reason

abbrev Entry := Except ReportError Record

def Entry.record? : Entry → Option Record
  | .ok record => some record
  | .error _ => none

def Entry.error? : Entry → Option ReportError
  | .ok _ => none
  | .error e => some e

structure Reading where
  records : List Record
  errors : List ReportError
  deriving DecidableEq, Repr

def Reading.ofEntries (entries : List Entry) : Reading :=
  ⟨entries.filterMap Entry.record?, entries.filterMap Entry.error?⟩

def positionLimit : Nat := 4294967296

end ScoreDesk.Report
