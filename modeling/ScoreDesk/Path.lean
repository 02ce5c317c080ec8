import ScoreDesk.Text.Line

namespace ScoreDesk

/-- A path as it was written. Equality of the structure is equality of the text; `same` compares
    what the path names. -/
structure Path where
  text : String
  deriving DecidableEq, Repr, Inhabited

inductive Component where
  | root
  | here
  | up
  | name (text : String)
  deriving DecidableEq, Repr

namespace Component

def rank : Component → Nat
  | root => 0
  | here => 1
  | up => 2
  | name _ => 3

def compare : Component → Component → Ordering
  | name a, name b => Ord.compare a b
  | a, b => Ord.compare a.rank b.rank

end Component

namespace Path

instance : ToString Path where
  toString p := p.text

def isAbsolute (p : Path) : Bool :=
  p.text.toList.head? = some '/'

def pieces (p : Path) : List (List Char) :=
  match p.text.toList with
  | '/' :: body => Text.splitAt '/' body
  | body => Text.splitAt '/' body

def pieceComponent? (leading : Bool) (piece : List Char) : Option Component :=
  if piece.isEmpty then none
  else if piece = ['.'] then if leading then some .here else none
  else if piece = ['.', '.'] then some .up
  else some (.name (.ofList piece))

def relativeComponents (dotAllowed : Bool) : List (List Char) → List Component
  | [] => []
  | piece :: rest =>
    (pieceComponent? dotAllowed piece).toList ++ rest.filterMap (pieceComponent? false)

def components (p : Path) : List Component :=
  if p.isAbsolute then .root :: relativeComponents false p.pieces
  else relativeComponents true p.pieces

def same (p q : Path) : Bool :=
  p.components = q.components

def compareComponents : List Component → List Component → Ordering
  | [], [] => .eq
  | [], _ :: _ => .lt
  | _ :: _, [] => .gt
  | a :: as, b :: bs => (a.compare b).then (compareComponents as bs)

def compare (p q : Path) : Ordering :=
  compareComponents p.components q.components

def join (dir p : Path) : Path :=
  if p.isAbsolute || dir.text.isEmpty then p
  else if dir.text.toList.getLast? = some '/' then ⟨dir.text ++ p.text⟩
  else ⟨dir.text ++ "/" ++ p.text⟩

def fileName? (p : Path) : Option String :=
  match p.components.getLast? with
  | some (.name text) => some text
  | _ => none

/-- A file name before and behind its last dot. A name has no extension without a dot, nor when its
    only dot is its first character. -/
def splitExtension (name : List Char) : List Char × Option (List Char) :=
  let behind := (name.reverse.takeWhile (· != '.')).reverse
  let before := name.take (name.length - behind.length - 1)
  if before.isEmpty then (name, none) else (before, some behind)

def extension? (p : Path) : Option String := do
  let name ← p.fileName?
  (splitExtension name.toList).2.map .ofList

def dropSilent (leading : Bool) (pieces : List (List Char)) : List (List Char) :=
  match pieces with
  | [] => []
  | piece :: rest =>
    match dropSilent false rest with
    | [] => if (pieceComponent? leading piece).isSome then [piece] else []
    | rest => piece :: rest

def ofPieces (absolute : Bool) (pieces : List (List Char)) : Path :=
  ⟨.ofList ((if absolute then ['/'] else []) ++ ['/'].intercalate pieces)⟩

def parent? (p : Path) : Option Path :=
  let leading := !p.isAbsolute
  match dropSilent leading p.pieces with
  | [] => none
  | pieces => some (ofPieces p.isAbsolute (dropSilent leading pieces.dropLast))

/-- What a file name leaves when its extension is cut off. One dot alone would name nothing, so the
    dot before the extension stays with it where the path ends in the name. -/
def stem (endsInName : Bool) (name : List Char) : List Char :=
  match splitExtension name with
  | (['.'], some _) => if endsInName then ['.', '.'] else ['.']
  | (before, _) => before

def withoutExtension (p : Path) : Path :=
  match p.fileName? with
  | none => p
  | some name =>
    let pieces := dropSilent (!p.isAbsolute) p.pieces
    let endsInName := p.pieces.getLast? = some name.toList
    ofPieces p.isAbsolute (pieces.dropLast ++ [stem endsInName name.toList])

def dirOrHere (p : Path) : Path :=
  match p.parent? with
  | some dir => if dir.text.isEmpty then ⟨"."⟩ else dir
  | none => ⟨"."⟩

def demandsDirectory (p : Path) : Bool :=
  match p.text.toList.reverse with
  | '/' :: _ => true
  | '.' :: '/' :: _ => true
  | _ => false

/-- The last component as it is written, where a dot at the end counts as one; none for the empty
    path and one of slashes alone. -/
def lastWritten? (p : Path) : Option Component :=
  (p.pieces.filterMap (pieceComponent? true)).getLast?

end Path

end ScoreDesk
