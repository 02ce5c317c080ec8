import ScoreDesk.Text.Line

namespace ScoreDesk.Text

abbrev Bytes := List UInt8

namespace Utf8

def encode (s : String) : Bytes :=
  s.toList.flatMap String.utf8EncodeChar

/-- How many octets a character that starts with this one has, and the range that its second octet
    must lie in. -/
def lead? (b : UInt8) : Option (Nat × UInt8 × UInt8) :=
  if b < 0x80 then some (1, 0x80, 0xbf)
  else if b < 0xc2 then none
  else if b < 0xe0 then some (2, 0x80, 0xbf)
  else if b == 0xe0 then some (3, 0xa0, 0xbf)
  else if b == 0xed then some (3, 0x80, 0x9f)
  else if b < 0xf0 then some (3, 0x80, 0xbf)
  else if b == 0xf0 then some (4, 0x90, 0xbf)
  else if b < 0xf4 then some (4, 0x80, 0xbf)
  else if b == 0xf4 then some (4, 0x80, 0x8f)
  else none

def continue? (low high : UInt8) : Nat → Nat → Bytes → Option Nat × Bytes
  | 0, value, rest => (some value, rest)
  | _ + 1, _, [] => (none, [])
  | owed + 1, value, b :: rest =>
    if low ≤ b && b ≤ high then continue? 0x80 0xbf owed (value * 64 + b.toNat % 64) rest
    else (none, b :: rest)

def first (b : UInt8) (rest : Bytes) : Option Char × Bytes :=
  match lead? b with
  | none => (none, rest)
  | some (size, low, high) =>
    let bits := if size == 1 then b.toNat else b.toNat % Nat.pow 2 (7 - size)
    let (value, left) := continue? low high (size - 1) bits rest
    (value.map Char.ofNat, left)

theorem continue?_length (low high : UInt8) (owed value : Nat) (rest : Bytes) :
    (continue? low high owed value rest).2.length ≤ rest.length := by
  induction rest generalizing low high owed value with
  | nil => cases owed <;> simp [continue?]
  | cons b rest ih =>
    cases owed with
    | zero => simp [continue?]
    | succ owed =>
      simp only [continue?]
      split
      · exact Nat.le_trans (ih ..) (by simp)
      · simp

theorem first_length (b : UInt8) (rest : Bytes) : (first b rest).2.length ≤ rest.length := by
  unfold first
  split
  · simp
  · exact continue?_length ..

/-- The characters of the octets, none for each stretch that is not UTF-8. -/
def chars : Bytes → List (Option Char)
  | [] => []
  | b :: rest =>
    have := first_length b rest
    (first b rest).1 :: chars (first b rest).2
termination_by bytes => bytes.length
decreasing_by simp; omega

def decode? (bytes : Bytes) : Option String :=
  ((chars bytes).mapM id).map .ofList

def decode (bytes : Bytes) : String :=
  .ofList ((chars bytes).map fun c => c.getD '\ufffd')

def drop : Nat → List Char → List Char
  | 0, s => s
  | _ + 1, [] => []
  | count + 1, c :: rest => drop (count + 1 - c.utf8Size) rest

def take : Nat → List Char → List Char
  | 0, _ => []
  | _ + 1, [] => []
  | count + 1, c :: rest => c :: take (count + 1 - c.utf8Size) rest

def slice (start stop : Nat) (s : List Char) : List Char :=
  take (stop - start) (drop start s)

end Utf8

namespace Stream

def lineFeed : UInt8 := 0x0a

/-- The lines of a stream as octets, without their line feeds and the carriage returns before them.
    What follows the last line feed is a line if there is anything. -/
def lines (bytes : Bytes) : List Bytes :=
  let pieces := splitAt lineFeed bytes
  pieces.dropLast.map dropReturn ++ pieces.getLast?.toList.filter fun last => !last.isEmpty
where
  dropReturn (line : Bytes) : Bytes :=
    if line.getLast? = some 0x0d then line.dropLast else line

def textLines (bytes : Bytes) : List String :=
  ((lines bytes).map Utf8.decode?).takeWhile Option.isSome |>.filterMap id

def readLine? : Bytes → Option (Bytes × Bytes)
  | [] => none
  | b :: rest =>
    if b = lineFeed then some ([b], rest)
    else match readLine? rest with
      | none => some ([b], [])
      | some (line, rest) => some (b :: line, rest)

end Stream

end ScoreDesk.Text
