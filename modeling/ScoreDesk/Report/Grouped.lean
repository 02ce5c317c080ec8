import ScoreDesk.Report.Structured

namespace ScoreDesk.Report

structure Anchor where
  before : List Char
  line : List Char
  column : List Char
  after : List Char
  deriving DecidableEq, Repr

def anchorAt? (s : List Char) : Option Anchor := do
  let (line, s) ← takeNumber? s
  let (column, s) ← takeNumber? (← skip? [':'] s)
  return ⟨[], line, column, s⟩

def findAnchor? : List Char → Option Anchor
  | [] => none
  | c :: rest =>
    match anchorAt? (c :: rest) with
    | some anchor => some anchor
    | none => (findAnchor? rest).map fun anchor => { anchor with before := c :: anchor.before }

def hasAnchor (line : List Char) : Bool :=
  (findAnchor? line).isSome

def groups : List (List Char) → List (List (List Char))
  | [] => []
  | line :: rest =>
    if hasAnchor line then (line :: rest.takeWhile (!hasAnchor ·)) :: groups rest else groups rest

def groupLines (output : List Char) : List (List (List Char)) :=
  groups (Text.lines output)

def splitTag (rest : List Char) : Severity × List Char :=
  match Text.splitOnce ':' rest with
  | some (tag, text) =>
    if tag = "error".toList then (.error, Text.trim text)
    else if tag = "warning".toList then (.warning, Text.trim text)
    else (.error, rest)
  | none => (.error, rest)

def groupEntry : List (List Char) → Entry
  | [] => .error (.malformedGroup "" .emptyGroup)
  | first :: more =>
    let malformed := fun defect => Except.error (.malformedGroup (.ofList first) defect)
    match findAnchor? first with
    | none => malformed .noPosition
    | some anchor =>
      let file := Text.trim (Text.dropEndWhile (· == ':') anchor.before)
      if file.isEmpty then malformed .noFile
      else match Text.natBelow? positionLimit anchor.line with
        | none => malformed .lineOutOfRange
        | some line =>
          match Text.natBelow? positionLimit anchor.column with
          | none => malformed .columnOutOfRange
          | some column =>
            let (severity, text) := splitTag (Text.trim (anchor.after.dropWhile (· == ':')))
            .ok (.ofReported (.ofList file) line column severity
              (.ofList (Text.joinLines (text :: more))) (.ofList (Text.joinLines (first :: more))))

def readGrouped (output : String) : Reading :=
  .ofEntries ((groupLines output.toList).map groupEntry)

inductive Strategy where
  | structured
  | grouped
  deriving DecidableEq, Repr, Inhabited

def read (strategy : Strategy) (output : String) : Reading :=
  match strategy with
  | .structured => readStructured output
  | .grouped => readGrouped output

end ScoreDesk.Report
