import ScoreDesk.Report.Record
import ScoreDesk.Text.Line

namespace ScoreDesk.Report

structure Remark where
  line : List Char
  column : List Char
  severity : Severity
  message : List Char
  deriving DecidableEq, Repr

def takeNumber? (s : List Char) : Option (List Char × List Char) :=
  match s.takeWhile Text.isDecimal with
  | [] => none
  | digits => some (digits, s.dropWhile Text.isDecimal)

def skip? (word s : List Char) : Option (List Char) :=
  if word.isPrefixOf s then some (s.drop word.length) else none

def severityTag? (s : List Char) : Option (Severity × List Char) :=
  match skip? "error".toList s with
  | some rest => some (.error, rest)
  | none => (skip? "warning".toList s).map fun rest => (.warning, rest)

def remark? (s : List Char) : Option Remark := do
  let (line, s) ← takeNumber? (← skip? [':'] s)
  let (column, s) ← takeNumber? (← skip? [':'] s)
  let (severity, s) ← severityTag? (← skip? [':', ' '] s)
  let message ← skip? [':', ' '] s
  if message.isEmpty then none else some ⟨line, column, severity, message⟩

/-- The file name and the remark of a line. Where several positions stand in the line, the file
    name is the longest one. -/
def splitRemark? : List Char → Option (List Char × Remark)
  | [] => none
  | c :: rest =>
    match splitRemark? rest with
    | some (file, remark) => some (c :: file, remark)
    | none => (remark? rest).map fun remark => ([c], remark)

/-- The part of a line that can hold a message: all before the first carriage return. -/
def cutLine (line : List Char) : List Char :=
  line.takeWhile (· != '\r')

def structuredEntry? (line : List Char) : Option Entry :=
  let raw := cutLine line
  (splitRemark? raw).map fun (file, remark) =>
    match Text.natBelow? positionLimit remark.line, Text.natBelow? positionLimit remark.column with
    | some l, some c =>
      .ok (.ofReported (.ofList file) l c remark.severity (.ofList remark.message) (.ofList raw))
    | _, _ => .error (.malformedGroup (.ofList raw) .positionOutOfRange)

def structuredEntries (output : List Char) : List Entry :=
  (Text.splitAt '\n' output).filterMap structuredEntry?

def readStructured (output : String) : Reading :=
  .ofEntries (structuredEntries output.toList)

end ScoreDesk.Report
