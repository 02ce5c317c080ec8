import ScoreDesk.Toml.Time
import ScoreDesk.Toml.Value

namespace ScoreDesk.Toml

/-- How a table came to be: by the dotted key of a setting, as the parent of a table that has a
    header, or by a header of its own. -/
inductive Origin where
  | dotted
  | implied
  | header
  deriving DecidableEq, Repr

inductive Item where
  | value (v : Value)
  | table (origin : Origin) (entries : List (String × Item))
  | tables (elements : List (List (String × Item)))
  deriving Inhabited

abbrev Items := List (String × Item)

namespace Items

def put (key : String) (item : Item) : Items → Items
  | [] => [(key, item)]
  | (k, i) :: rest => if k = key then (k, item) :: rest else (k, i) :: put key item rest

def erase (key : String) (items : Items) : Items :=
  items.filter (·.1 != key)

/-- Changes the table that a path leads to, making the tables on the way that are missing. The last
    element of an array of tables stands for the array. Dotted keys do not reach into a table that
    has a header. -/
def alter (dotted : Bool) (change : Origin → Items → Option Items) :
    List String → Origin → Items → Option Items
  | [], origin, items => change origin items
  | key :: path, _, items =>
    match items.lookup key with
    | none => do
      let origin := if dotted then .dotted else .implied
      let inner ← alter dotted change path origin []
      return put key (.table origin inner) items
    | some (.value _) => none
    | some (.table origin inner) =>
      if dotted && origin = .header then none
      else (alter dotted change path origin inner).map fun inner =>
        put key (.table origin inner) items
    | some (.tables elements) =>
      match elements.getLast? with
      | none => none
      | some last => (alter dotted change path .header last).map fun last =>
          put key (.tables (elements.dropLast ++ [last])) items

/-- Opens the table of a header, behind all that its owner has. A table that is only implied so far
    becomes its own and moves there. -/
def openTable (path : List String) (items : Items) : Option Items := do
  let key ← path.getLast?
  alter false (fun _ items =>
    match items.lookup key with
    | none => some (put key (.table .header []) items)
    | some (.table .implied inner) => some (put key (.table .header inner) (erase key items))
    | some _ => none) path.dropLast .header items

def openElement (path : List String) (items : Items) : Option Items := do
  let key ← path.getLast?
  alter false (fun _ items =>
    match items.lookup key with
    | none => some (put key (.tables [[]]) items)
    | some (.tables elements) => some (put key (.tables (elements ++ [[]])) items)
    | some _ => none) path.dropLast .header items

def assign (path : List String) (value : Value) (origin : Origin) (items : Items) :
    Option Items := do
  let key ← path.getLast?
  let owners := path.dropLast
  alter true (fun origin items =>
    if (origin = .dotted) = owners.isEmpty then none
    else match items.lookup key with
      | none => some (put key (.value value) items)
      | some _ => none) owners origin items

end Items

mutual

def Item.toValue : Item → Value
  | .value v => v
  | .table _ entries => .table (entryValues entries)
  | .tables elements => .array (elementValues elements)

def entryValues : List (String × Item) → Table
  | [] => []
  | (key, item) :: rest => (key, item.toValue) :: entryValues rest

def elementValues : List (List (String × Item)) → List Value
  | [] => []
  | element :: rest => .table (entryValues element) :: elementValues rest

end

namespace Reader

open Lexeme

def skipFiller : Nat → List Char → Option (List Char)
  | 0, _ => none
  | fuel + 1, s =>
    match skipWhite s with
    | '#' :: rest => do skipFiller fuel (← newline? (rest.dropWhile isPlain))
    | s =>
      match newline? s with
      | some rest => skipFiller fuel rest
      | none => some s

def timeBehind? (date : List Char) (rest : List Char) : Option (Option (List Char × List Char)) :=
  match rest with
  | ' ' :: more =>
    match more.takeWhile (!endsBare ·) with
    | [] => some none
    | lexeme =>
      match Time.clockZone? lexeme with
      | some clock => some (some (date ++ 'T' :: clock, more.dropWhile (!endsBare ·)))
      | none => none
  | _ => some none

def bare? (s : List Char) : Option (Value × List Char) :=
  let lexeme := s.takeWhile (!endsBare ·)
  let rest := s.dropWhile (!endsBare ·)
  if lexeme = "true".toList then some (.flag true, rest)
  else if lexeme = "false".toList then some (.flag false, rest)
  else match Time.date? lexeme with
    | some (date, []) => do
      match ← timeBehind? date rest with
      | some (time, rest) => return (.time (.ofList time), rest)
      | none => return (.time (.ofList date), rest)
    | _ =>
      match Time.ofLexeme? lexeme with
      | some time => some (.time (.ofList time), rest)
      | none =>
        match integer? lexeme with
        | some n => some (.integer n, rest)
        | none => if isFloat lexeme then some (.float (.ofList lexeme), rest) else none

mutual

def value? : Nat → Nat → List Char → Option (Value × List Char)
  | 0, _, _ => none
  | fuel + 1, depth, s =>
    match s with
    | '\x22' :: _ => (text? s).map fun (t, rest) => (.text (.ofList t), rest)
    | '\x27' :: _ => (text? s).map fun (t, rest) => (.text (.ofList t), rest)
    | '[' :: rest =>
      if depth = 0 then none
      else (elements? fuel (depth - 1) rest).map fun (vs, rest) => (.array vs, rest)
    | '\x7b' :: rest =>
      if depth = 0 then none
      else
        match skipWhite rest with
        | '\x7d' :: rest => some (.table [], rest)
        | rest => do
          let (items, rest) ← pairs? fuel (depth - 1) [] rest
          return (.table (entryValues items), rest)
    | s => bare? s

def elements? : Nat → Nat → List Char → Option (List Value × List Char)
  | 0, _, _ => none
  | fuel + 1, depth, s => do
    match ← skipFiller (s.length + 1) s with
    | ']' :: rest => return ([], rest)
    | s =>
      let (v, s) ← value? fuel depth s
      match ← skipFiller (s.length + 1) s with
      | ',' :: rest => do
        let (vs, rest) ← elements? fuel depth rest
        return (v :: vs, rest)
      | ']' :: rest => return ([v], rest)
      | _ => none

def pairs? : Nat → Nat → Items → List Char → Option (Items × List Char)
  | 0, _, _, _ => none
  | fuel + 1, depth, items, s => do
    let (key, s) ← key? (skipWhite s)
    let s ← skipChar? '=' s
    let (v, s) ← value? fuel depth (skipWhite s)
    let items ← items.assign key v .header
    match skipWhite s with
    | ',' :: rest => pairs? fuel depth items rest
    | '\x7d' :: rest => return (items, rest)
    | _ => none

end

structure Progress where
  items : Items
  current : List String

def statement? (p : Progress) (s : List Char) : Option (Progress × List Char) :=
  match s with
  | '[' :: '[' :: rest => do
    let (path, rest) ← key? (skipWhite rest)
    let rest ← skipChar? ']' (← skipChar? ']' rest)
    return (⟨← p.items.openElement path, path⟩, ← lineEnd? rest)
  | '[' :: rest => do
    let (path, rest) ← key? (skipWhite rest)
    let rest ← skipChar? ']' rest
    return (⟨← p.items.openTable path, path⟩, ← lineEnd? rest)
  | '#' :: _ => do return (p, ← lineEnd? s)
  | '\n' :: rest => some (p, rest)
  | '\r' :: '\n' :: rest => some (p, rest)
  | s => do
    let (path, rest) ← key? s
    let rest ← skipChar? '=' rest
    let rest := skipWhite rest
    let (v, rest) ← value? (rest.length + 1) (depthLimit - 1) rest
    let items ← p.items.alter false (fun origin items => items.assign path v origin) p.current
      .header
    return (⟨items, p.current⟩, ← lineEnd? rest)

def statements? : Nat → Progress → List Char → Option Items
  | 0, _, _ => none
  | fuel + 1, p, s =>
    match skipWhite s with
    | [] => some p.items
    | s => do
      let (p, rest) ← statement? p s
      statements? fuel p rest

end Reader

def timeKey : String := "$__toml_private_datetime"

def Table.timeEntry? : Table → Option Value
  | (key, value) :: _ => if key = timeKey then some value else none
  | [] => none

def Value.toTime? : Value → Option Value
  | .text s => (Time.ofWrapped? s.toList).map fun time => .time (.ofList time)
  | _ => none

mutual

/-- Puts times where tables stand for them. Such a table has to name one; what else it holds means
    nothing. -/
def Value.settle? : Value → Option Value
  | .table entries =>
    match Table.timeEntry? entries with
    | some value => value.toTime?
    | none => (settleEntries? entries).map .table
  | .array items => (settleItems? items).map .array
  | value => some value

def settleEntries? : List (String × Value) → Option Table
  | [] => some []
  | (key, value) :: rest => do return (key, ← value.settle?) :: (← settleEntries? rest)

def settleItems? : List Value → Option (List Value)
  | [] => some []
  | value :: rest => do return (← value.settle?) :: (← settleItems? rest)

end

/-- Reads a document; a byte order mark in front is left out. The document itself is a table that
    never stands for a time. -/
def read? (text : String) : Option Table := do
  let s := match text.toList with
    | '\ufeff' :: rest => rest
    | s => s
  settleEntries? (entryValues (← Reader.statements? (s.length + 1) ⟨[], []⟩ s))

end ScoreDesk.Toml
