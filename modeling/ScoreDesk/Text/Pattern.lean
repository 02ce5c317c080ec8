import ScoreDesk.Text.Alphanumeric
import ScoreDesk.Text.Line

namespace ScoreDesk.Text.Pattern

structure Flags where
  unicode : Bool
  verbose : Bool
  deriving DecidableEq, Repr

def Flags.start : Flags := ⟨true, false⟩

def flagLetters : List Char := ['i', 'm', 's', 'U', 'u', 'R', 'x']

def Flags.change : Bool → Flags → List Char → Flags
  | _, flags, [] => flags
  | on, flags, c :: rest =>
    if c = '-' then change false flags rest
    else if c = 'u' then change on { flags with unicode := on } rest
    else if c = 'x' then change on { flags with verbose := on } rest
    else change on flags rest

def skipFrom (inComment : Bool) : List Char → List Char
  | [] => []
  | c :: rest =>
    if inComment then skipFrom (c != '\n') rest
    else if c = '#' then skipFrom true rest
    else if isBlank c then skipFrom false rest
    else c :: rest

def skip (flags : Flags) (s : List Char) : List Char :=
  if flags.verbose then skipFrom false s else s

def following? (flags : Flags) (s : List Char) : Option Char :=
  if flags.verbose then
    match s.dropWhile isBlank with
    | '#' :: rest => (rest.dropWhile isBlank).head?
    | s => s.head?
  else s.head?

inductive Escape where
  | literal (c : Char)
  | set
  | place (atWord : Bool)
  deriving DecidableEq, Repr

def hexDigits? (flags : Flags) : Nat → List Char → Option (List Char × List Char)
  | 0, s => some ([], s)
  | count + 1, s =>
    match skip flags s with
    | [] => none
    | c :: rest => do
      let _ ← hexValue? c
      let (digits, rest) ← hexDigits? flags count rest
      return (c :: digits, rest)

def codePoint? (flags : Flags) (count : Nat) (s : List Char) : Option (Escape × List Char) := do
  let (digits, rest) ← hexDigits? flags count s
  let c ← scalar? digits
  if count = 2 && !flags.unicode && 0x7f < c.toNat then none else return (.literal c, rest)

def property? (flags : Flags) (s : List Char) : Option (Escape × List Char) :=
  match skip flags s with
  | [] => none
  | c :: rest =>
    if flags.unicode && ['c', 'l', 'm', 'n', 'p', 's', 'z'].contains c.toLower then
      some (.set, rest)
    else none

def escaped? (c : Char) : Option Char :=
  match c with
  | 'a' => some '\x07'
  | 'f' => some '\x0c'
  | 't' => some '\t'
  | 'n' => some '\n'
  | 'r' => some '\r'
  | 'v' => some '\x0b'
  | c => if c.toNat < 0x80 && !c.isAlphanum then some c else none

/-- Reads what stands behind a backslash. Octets have no sets that are all but some octets: those
    would take characters apart. -/
def escape? (flags : Flags) : List Char → Option (Escape × List Char)
  | [] => none
  | c :: rest =>
    if c = 'x' then codePoint? flags 2 rest
    else if c = 'u' then codePoint? flags 4 rest
    else if c = 'U' then codePoint? flags 8 rest
    else if c = 'p' || c = 'P' then property? flags rest
    else if c = 'd' || c = 's' || c = 'w' then some (.set, rest)
    else if c = 'D' || c = 'S' || c = 'W' then
      if flags.unicode then some (.set, rest) else none
    else if c = 'A' || c = 'z' then some (.place false, rest)
    else if c = 'b' || c = 'B' || c = '<' || c = '>' then some (.place true, rest)
    else (escaped? c).map fun c => (.literal c, rest)

inductive Operator where
  | both
  | without
  | either
  deriving DecidableEq, Repr

def Operator.apply (op : Operator) (left right : Bool) : Bool :=
  match op with
  | both => left && right
  | without => left && !right
  | either => left != right

inductive Stage where
  | first
  | dashes
  | inside
  deriving DecidableEq, Repr

/-- A set in brackets while it is read: the operator that waits for its right side with the left
    one, and what was read since. Of each set it is known whether the octets beyond ASCII are in
    it: all of them are, or none. -/
structure Bracket where
  negated : Bool
  waiting : Option (Operator × Bool)
  high : Bool
  deriving DecidableEq, Repr

namespace Bracket

def opened (negated : Bool) : Bracket := ⟨negated, none, false⟩

def add (b : Bracket) (high : Bool) : Bracket := { b with high := b.high || high }

def value (b : Bracket) : Bool :=
  match b.waiting with
  | none => b.high
  | some (op, left) => op.apply left b.high

def operate (b : Bracket) (op : Operator) : Bracket :=
  { b with waiting := some (op, b.value), high := false }

def close? (b : Bracket) (flags : Flags) : Option Bool :=
  let high := b.value != b.negated
  if high && !flags.unicode then none else some high

end Bracket

def asciiClasses : List String :=
  ["alnum", "alpha", "ascii", "blank", "cntrl", "digit", "graph", "lower", "print", "punct",
   "space", "upper", "word", "xdigit"]

def asciiName? (s : List Char) : Option (List Char) :=
  match s.dropWhile (· != ':') with
  | ':' :: ']' :: rest =>
    if asciiClasses.contains (.ofList (s.takeWhile (· != ':'))) then some rest else none
  | _ => none

def asciiClass? : List Char → Option (Bool × List Char)
  | ':' :: '^' :: s => (asciiName? s).map (true, ·)
  | ':' :: s => (asciiName? s).map (false, ·)
  | _ => none

def negation (flags : Flags) (s : List Char) : Bool × List Char :=
  match skip flags s with
  | '^' :: rest => (true, rest)
  | s => (false, s)

def member? (flags : Flags) (s : List Char) : Option (Escape × List Char) :=
  let member := match s with
    | [] => none
    | '\x5c' :: rest => escape? flags rest
    | c :: rest => some (.literal c, rest)
  match member with
  | some (.literal c, rest) =>
    if flags.unicode || c.toNat < 0x80 then some (.literal c, rest) else none
  | other => other

def single? (member : Escape) (rest : List Char) : Option (List Char) :=
  match member with
  | .place _ => none
  | _ => some rest

def range? (flags : Flags) (s : List Char) : Option (List Char) := do
  let (first, rest) ← member? flags s
  match skip flags rest with
  | '-' :: more =>
    let next := following? flags more
    if next = some ']' || next = some '-' then single? first ('-' :: more)
    else
      match first, ← member? flags (skip flags more) with
      | .literal low, (.literal high, rest) => if low ≤ high then some rest else none
      | _, _ => none
  | rest => single? first rest

def members? (flags : Flags) : Nat → Stage → Bracket → List Char → Option (Bool × List Char)
  | 0, _, _, _ => none
  | fuel + 1, stage, b, s =>
    match stage, skip flags s with
    | _, [] => none
    | .first, '-' :: rest => members? flags fuel .dashes b rest
    | .dashes, '-' :: rest => members? flags fuel .dashes b rest
    | .first, ']' :: rest => members? flags fuel .inside b rest
    | _, ']' :: rest => do return (← b.close? flags, rest)
    | _, '[' :: rest =>
      match asciiClass? rest with
      | some (negated, rest) => members? flags fuel .inside (b.add negated) rest
      | none => do
        let (negated, rest) := negation flags rest
        let (high, rest) ← members? flags fuel .first (.opened negated) rest
        members? flags fuel .inside (b.add high) rest
    | _, '&' :: '&' :: rest => members? flags fuel .inside (b.operate .both) rest
    | _, '-' :: '-' :: rest => members? flags fuel .inside (b.operate .without) rest
    | _, '~' :: '~' :: rest => members? flags fuel .inside (b.operate .either) rest
    | _, s => do members? flags fuel .inside b (← range? flags s)

def set? (flags : Flags) (s : List Char) : Option (List Char) := do
  let (negated, rest) := negation flags s
  let (_, rest) ← members? flags (rest.length + 1) .first (.opened negated) rest
  return rest

/-- A pattern while it is read: the flags here and those around each open group, the names of the
    groups, whether something stands here that can be repeated, and whether the pattern looks for
    the edges of words made of any letters. -/
structure Progress where
  flags : Flags
  outer : List Flags
  names : List (List Char)
  repeatable : Bool
  atWord : Bool
  deriving DecidableEq, Repr

namespace Progress

def opened (p : Progress) (inner : Flags) : Progress :=
  { p with flags := inner, outer := p.flags :: p.outer, repeatable := false }

def behind (p : Progress) : Progress := { p with repeatable := true }

end Progress

def isGroupName : List Char → Bool
  | [] => false
  | first :: rest =>
    (first = '_' || isAlphabetic first) &&
      rest.all fun c => c = '_' || c = '.' || c = '[' || c = ']' || isAlphanumeric c

def areFlags (word : List Char) : Bool :=
  word.all (fun c => c = '-' || flagLetters.contains c) && word.Nodup && word.getLast? != some '-'

def named? (p : Progress) (s : List Char) : Option (Progress × List Char) :=
  let name := s.takeWhile (· != '>')
  match s.dropWhile (· != '>') with
  | [] => none
  | _ :: rest =>
    if isGroupName name && !p.names.contains name then
      some ({ p with names := name :: p.names }.opened p.flags, rest)
    else none

def flagged? (p : Progress) (s : List Char) : Option (Progress × List Char) :=
  let ends := fun c => c = ':' || c = ')'
  let word := s.takeWhile (!ends ·)
  let flags := Flags.change true p.flags word
  if !areFlags word then none
  else match s.dropWhile (!ends ·) with
    | [] => none
    | c :: rest =>
      if c = ':' then some (p.opened flags, rest)
      else if word.isEmpty then none
      else some ({ p with flags, repeatable := false }, rest)

def group? (p : Progress) (s : List Char) : Option (Progress × List Char) :=
  match skip p.flags s with
  | '?' :: 'P' :: '<' :: rest => named? p rest
  | '?' :: '<' :: rest => named? p rest
  | '?' :: rest => flagged? p rest
  | rest => some (p.opened p.flags, rest)

def dropLazy : List Char → List Char
  | '?' :: rest => rest
  | s => s

def read? : Nat → Progress → List Char → Option Progress
  | 0, _, _ => none
  | fuel + 1, p, s =>
    match skip p.flags s with
    | [] => if p.outer.isEmpty then some p else none
    | '(' :: rest => do
      let (p, rest) ← group? p rest
      read? fuel p rest
    | ')' :: rest =>
      match p.outer with
      | [] => none
      | flags :: outer => read? fuel { p with flags, outer }.behind rest
    | '[' :: rest => do read? fuel p.behind (← set? p.flags rest)
    | '\x5c' :: rest => do
      let (escape, rest) ← escape? p.flags rest
      let atWord := p.atWord || p.flags.unicode && escape = .place true
      read? fuel { p with atWord }.behind rest
    | c :: rest =>
      if c = '|' then read? fuel { p with repeatable := false } rest
      else if c = '?' || c = '*' || c = '+' then
        if p.repeatable then read? fuel p (dropLazy rest) else none
      else if c = '\x7b' then none
      else if c = '.' && !p.flags.unicode then none
      else read? fuel p.behind rest

inductive Defect where
  | malformed
  | wordEdge
  deriving DecidableEq, Repr

/-- Checks a pattern that has no closing brace in it, so that what needs one is malformed: a counted
    repetition, a property or a code point in braces. An automaton that goes from octet to octet
    cannot see the edges of words that have letters beyond ASCII. -/
def check (s : List Char) : Except Defect Unit :=
  match read? (s.length + 1) ⟨.start, [], [], false, false⟩ s with
  | none => .error .malformed
  | some p => if p.atWord then .error .wordEdge else .ok ()

end ScoreDesk.Text.Pattern
