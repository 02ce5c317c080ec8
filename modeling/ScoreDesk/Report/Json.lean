import ScoreDesk.Report.Diagnostic

namespace ScoreDesk.Report.Json

def hexDigits (n : Nat) : List Char :=
  let digits := Nat.toDigits 16 n
  List.replicate (4 - digits.length) '0' ++ digits

def escape (c : Char) : List Char :=
  if c = '\x22' then ['\x5c', '\x22']
  else if c = '\x5c' then ['\x5c', '\x5c']
  else if c = '\n' then ['\x5c', 'n']
  else if c = '\r' then ['\x5c', 'r']
  else if c = '\t' then ['\x5c', 't']
  else if c = '\x08' then ['\x5c', 'b']
  else if c = '\x0c' then ['\x5c', 'f']
  else if c.toNat < 0x20 then ['\x5c', 'u'] ++ hexDigits c.toNat
  else [c]

def quote (s : String) : String :=
  .ofList (['\x22'] ++ s.toList.flatMap escape ++ ['\x22'])

def indent (lines : List String) : List String :=
  lines.map ("  " ++ ·)

def separate : List (List String) → List String
  | [] => []
  | [block] => block
  | block :: rest =>
    block.dropLast ++ (block.getLast?.map (· ++ ",")).toList ++ separate rest

def bracket (opening closing : String) (blocks : List (List String)) : List String :=
  if blocks.isEmpty then [opening ++ closing]
  else [opening] ++ indent (separate blocks) ++ [closing]

def field (name : String) (value : List String) : List String :=
  match value with
  | [] => [quote name ++ ": "]
  | first :: rest => (quote name ++ ": " ++ first) :: rest

def object (fields : List (List String)) : List String :=
  bracket "\x7b" "\x7d" fields

def position (p : Position) : List String :=
  object [field "line" [toString p.line], field "character" [toString p.character]]

def span (s : Span) : List String :=
  object [field "start" (position s.start), field "end" (position s.stop)]

def diagnostic (d : Diagnostic) : List String :=
  object [field "file" [quote d.file.text], field "range" (span d.span),
    field "severity" [quote d.severity.word], field "message" [quote d.message]]

def diagnostics (shown : List Diagnostic) : String :=
  "\n".intercalate (bracket "[" "]" (shown.map diagnostic))

end ScoreDesk.Report.Json
