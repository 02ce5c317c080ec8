namespace ScoreDesk.Toml

/-- A value of a document. Floats and times are kept as text: nothing here computes with them. -/
inductive Value where
  | text (s : String)
  | integer (n : Int)
  | float (lexeme : String)
  | flag (b : Bool)
  | time (s : String)
  | array (items : List Value)
  | table (entries : List (String × Value))
  deriving Repr, Inhabited

abbrev Table := List (String × Value)

namespace Table

def put (key : String) (value : Value) : Table → Table
  | [] => [(key, value)]
  | (k, v) :: rest => if k = key then (k, value) :: rest else (k, v) :: put key value rest

end Table

mutual

def Value.merge (base : Value) : Value → Value
  | .table overlay =>
    match base with
    | .table entries => .table (mergeEntries entries overlay)
    | _ => .table overlay
  | other => other

def mergeEntries (base : Table) : List (String × Value) → Table
  | [] => base
  | (key, value) :: rest =>
    let value := match base.lookup key with
      | some old => old.merge value
      | none => value
    mergeEntries (Table.put key value base) rest

end

def Table.merge (base overlay : Table) : Table :=
  mergeEntries base overlay

end ScoreDesk.Toml
