namespace ScoreDesk.Toml

inductive QuoteForm where
  | basic
  | literal
  | multiBasic
  | multiLiteral
  deriving DecidableEq, Repr

namespace Quoted

def quote : Char := '\x22'

def apostrophe : Char := '\x27'

def backslash : Char := '\x5c'

def isControl (c : Char) : Bool :=
  c.toNat < 0x20 || c == '\x7f'

def needsEscape (c : Char) : Bool :=
  isControl c && c != '\t' && c != '\n'

def hasTriple (c : Char) : List Char → Bool
  | a :: b :: d :: rest => (a == c && b == c && d == c) || hasTriple c (b :: d :: rest)
  | _ => false

def form (s : List Char) : QuoteForm :=
  let escapes := s.any needsEscape
  if !escapes && !s.contains backslash && !s.contains quote && !s.contains '\n' then .basic
  else if !escapes && !s.contains apostrophe && !s.contains '\n' then .literal
  else if !escapes && !s.contains backslash && !hasTriple quote s then .multiBasic
  else if !escapes && !hasTriple apostrophe s then .multiLiteral
  else if s.contains '\n' then .multiBasic
  else .basic

def hexUpper (n : Nat) : Char :=
  if n < 10 then Char.ofNat (48 + n) else Char.ofNat (55 + n)

def unicodeEscape (c : Char) : List Char :=
  let n := c.toNat
  [backslash, 'u', hexUpper (n / 4096 % 16), hexUpper (n / 256 % 16), hexUpper (n / 16 % 16),
    hexUpper (n % 16)]

def escape (c : Char) : List Char × Bool :=
  if c = '\x08' then ([backslash, 'b'], true)
  else if c = '\t' then ([backslash, 't'], true)
  else if c = '\x0c' then ([backslash, 'f'], true)
  else if c = '\r' then ([backslash, 'r'], true)
  else if c = backslash then ([backslash, backslash], true)
  else if isControl c then (unicodeEscape c, true)
  else ([c], false)

def basicBody : List Char → List Char
  | [] => []
  | c :: rest =>
    (if c = quote then [backslash, quote]
      else if c = '\n' then [backslash, 'n']
      else (escape c).1) ++ basicBody rest

def multiBasicBody (run : Nat) : List Char → List Char
  | [] => []
  | c :: rest =>
    if c = quote then
      if run = 2 then backslash :: quote :: multiBasicBody 0 rest
      else quote :: multiBasicBody (run + 1) rest
    else if c = '\n' then '\n' :: multiBasicBody 0 rest
    else (escape c).1 ++ multiBasicBody 0 rest

def delimiter : QuoteForm → List Char
  | .basic => [quote]
  | .literal => [apostrophe]
  | .multiBasic => [quote, quote, quote]
  | .multiLiteral => [apostrophe, apostrophe, apostrophe]

def isMulti : QuoteForm → Bool
  | .multiBasic | .multiLiteral => true
  | _ => false

def body (f : QuoteForm) (s : List Char) : List Char :=
  match f with
  | .basic => basicBody s
  | .multiBasic => multiBasicBody 0 s
  | .literal | .multiLiteral => s

/-- A text as it is written in a document. Where it has a line feed, its first line begins below
    the opening quotes. -/
def encode (f : QuoteForm) (s : List Char) : List Char :=
  delimiter f ++ (if isMulti f && s.contains '\n' then ['\n'] else []) ++ body f s ++ delimiter f

end Quoted

end ScoreDesk.Toml
