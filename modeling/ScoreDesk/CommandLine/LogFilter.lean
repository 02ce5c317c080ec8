import ScoreDesk.Text.Line
import ScoreDesk.Text.Pattern
import ScoreDesk.Text.Utf8

namespace ScoreDesk.CommandLine

def logDirectives (given : Option String) (verbose : Bool) (configured : String) : String :=
  match (given.map Text.trimmed).filter (!·.isEmpty) with
  | some directives => directives
  | none =>
    if verbose then "debug"
    else
      let level := Text.trimmed configured
      if level.isEmpty then "info" else level

inductive FilterError where
  | directive
  | level
  | field (defect : Text.Pattern.Defect)
  deriving DecidableEq, Repr

def patternMessage : Text.Pattern.Defect → String
  | .malformed => "error building NFA"
  | .wordEdge => "unsupported regex feature for DFAs: cannot build DFAs for regexes with " ++
      "Unicode word boundaries; switch to ASCII word boundaries, or heuristically enable " ++
      "Unicode word boundaries or use a different regex engine"

def FilterError.message : FilterError → String
  | directive => "invalid filter directive"
  | level => "error parsing level filter: expected one of \"off\", \"error\", \"warn\", " ++
      "\"info\", \"debug\", \"trace\", or a number 0-5"
  | field defect => "invalid field filter: " ++ patternMessage defect

def isLevel (word : List Char) : Bool :=
  word.isEmpty || (Text.signedNatBelow? 6 word).isSome ||
    ["off", "error", "warn", "info", "debug", "trace"].contains (Text.lower (.ofList word))

def checkLevel (word : List Char) : Except FilterError Unit :=
  if isLevel word then .ok () else .error .level

def checkField (field : List Char) : Except FilterError Unit :=
  match Text.splitAt '=' field with
  | _ :: value :: _ =>
    if Text.isDouble value then .ok () else (Text.Pattern.check value).mapError .field
  | _ => .ok ()

inductive FilterPart where
  | start
  | target
  | span
  | field (start : Nat)
  | fields
  | behind
  deriving DecidableEq, Repr

def startsTarget (c : Char) : Bool :=
  Text.isAlphanumeric c || c = '-' || c = ':' || c = '_'

/-- Reads one directive: a target, a span in brackets, and a level behind an equals sign. Fields and
    levels are cut out of `source` at the places, counted in octets, where they are read. -/
def readDirective (source : List Char) :
    FilterPart → Nat → List Char → Except FilterError Unit
  | .start, _, [] => .error .directive
  | .start, place, c :: rest =>
    if c = '[' then readDirective source .span (place + c.utf8Size) rest
    else if startsTarget c then readDirective source .target (place + c.utf8Size) rest
    else .error .directive
  | .target, _, [] => .ok ()
  | .target, place, c :: rest =>
    if c = '=' then checkLevel (Text.Utf8.drop (place + 1) source)
    else if c = '[' then readDirective source .span (place + c.utf8Size) rest
    else readDirective source .target (place + c.utf8Size) rest
  | .span, _, [] => .error .directive
  | .span, place, c :: rest =>
    if c = ']' then readDirective source .behind (place + c.utf8Size) rest
    else if c = '\x7b' then readDirective source (.field (place + 1)) (place + c.utf8Size) rest
    else readDirective source .span (place + c.utf8Size) rest
  | .field _, _, [] => .error .directive
  | .field start, place, c :: rest =>
    if c = '\x7d' then
      if start = place then .error .directive
      else do
        checkField (Text.Utf8.slice start place source)
        readDirective source .fields (place + c.utf8Size) rest
    else readDirective source (.field start) (place + c.utf8Size) rest
  | .fields, place, c :: rest =>
    if c = ']' then readDirective source .behind (place + c.utf8Size) rest else .error .directive
  | .fields, _, [] => .error .directive
  | .behind, _, [] => .ok ()
  | .behind, place, c :: _ =>
    if c = '=' then checkLevel (Text.Utf8.drop (place + 1) source) else .error .directive

def checkDirective (directive : List Char) : Except FilterError Unit :=
  readDirective directive .start 0 (Text.trim directive)

def checkDirectives (directives : String) : Except FilterError Unit :=
  ((Text.splitAt ',' directives.toList).filter (!·.isEmpty)).forM checkDirective

def filterWarning? (directives : String) : Option String :=
  match checkDirectives directives with
  | .ok () => none
  | .error e => some ("invalid log filter `" ++ directives ++ "`: " ++ e.message ++ "; using info")

end ScoreDesk.CommandLine
