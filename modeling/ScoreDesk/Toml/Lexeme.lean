import ScoreDesk.Text.Digit
import ScoreDesk.Toml.Quoted

namespace ScoreDesk.Toml

abbrev Reader (α : Type) := List Char → Option (α × List Char)

namespace Lexeme

open Text (hexValue? scalar?)

def isWhite (c : Char) : Bool :=
  c == ' ' || c == '\t'

def skipWhite (s : List Char) : List Char :=
  s.dropWhile isWhite

def newline? : List Char → Option (List Char)
  | '\n' :: rest => some rest
  | '\r' :: '\n' :: rest => some rest
  | _ => none

def isPlain (c : Char) : Bool :=
  c == '\t' || !Quoted.isControl c

def skipComment : List Char → List Char
  | '#' :: rest => rest.dropWhile isPlain
  | s => s

def lineEnd? (s : List Char) : Option (List Char) :=
  match skipComment (skipWhite s) with
  | [] => some []
  | s => newline? s

def letterEscape? (c : Char) : Option Char :=
  match c with
  | 'b' => some '\x08'
  | 't' => some '\t'
  | 'n' => some '\n'
  | 'f' => some '\x0c'
  | 'r' => some '\r'
  | '\x22' => some '\x22'
  | '\x5c' => some '\x5c'
  | _ => none

def consFst (c : Char) (r : List Char × List Char) : List Char × List Char :=
  (c :: r.1, r.2)

def basicBody : Reader (List Char)
  | [] => none
  | '\x22' :: rest => some ([], rest)
  | '\x5c' :: 'u' :: a :: b :: c :: d :: rest => do
    return consFst (← scalar? [a, b, c, d]) (← basicBody rest)
  | '\x5c' :: 'U' :: a :: b :: c :: d :: e :: f :: g :: h :: rest => do
    return consFst (← scalar? [a, b, c, d, e, f, g, h]) (← basicBody rest)
  | '\x5c' :: letter :: rest => do return consFst (← letterEscape? letter) (← basicBody rest)
  | c :: rest => if isPlain c then (basicBody rest).map (consFst c) else none

def literalBody : Reader (List Char)
  | [] => none
  | '\x27' :: rest => some ([], rest)
  | c :: rest => if isPlain c then (literalBody rest).map (consFst c) else none

/-- Behind three closing quotes up to two more belong to the text. -/
def closing (quote : Char) : List Char → List Char × List Char
  | a :: b :: rest =>
    if a = quote then if b = quote then ([a, b], rest) else ([a], b :: rest)
    else ([], a :: b :: rest)
  | a :: rest => if a = quote then ([a], rest) else ([], a :: rest)
  | [] => ([], [])

def breaksLine (s : List Char) : Bool :=
  (newline? (skipWhite s)).isSome

/-- Reads up to the closing quotes of a text over several lines. While `skipping`, blanks and line
    endings are left out: a backslash at the end of a line starts that. -/
def multiBasicBody : Bool → Reader (List Char)
  | _, [] => none
  | _, '\x22' :: '\x22' :: '\x22' :: rest => some (closing '\x22' rest)
  | skipping, '\r' :: '\n' :: rest =>
    if skipping then multiBasicBody true rest
    else (multiBasicBody false rest).map (consFst '\n')
  | skipping, '\n' :: rest =>
    if skipping then multiBasicBody true rest
    else (multiBasicBody false rest).map (consFst '\n')
  | _, '\x5c' :: 'u' :: a :: b :: c :: d :: rest => do
    return consFst (← scalar? [a, b, c, d]) (← multiBasicBody false rest)
  | _, '\x5c' :: 'U' :: a :: b :: c :: d :: e :: f :: g :: h :: rest => do
    return consFst (← scalar? [a, b, c, d, e, f, g, h]) (← multiBasicBody false rest)
  | _, '\x5c' :: letter :: rest =>
    if breaksLine (letter :: rest) then multiBasicBody true (letter :: rest)
    else do return consFst (← letterEscape? letter) (← multiBasicBody false rest)
  | skipping, c :: rest =>
    if skipping && isWhite c then multiBasicBody true rest
    else if isPlain c then (multiBasicBody false rest).map (consFst c)
    else none

def multiLiteralBody : Reader (List Char)
  | [] => none
  | '\x27' :: '\x27' :: '\x27' :: rest => some (closing '\x27' rest)
  | '\r' :: '\n' :: rest => (multiLiteralBody rest).map (consFst '\n')
  | '\n' :: rest => (multiLiteralBody rest).map (consFst '\n')
  | c :: rest => if isPlain c then (multiLiteralBody rest).map (consFst c) else none

def dropFirstNewline (s : List Char) : List Char :=
  (newline? s).getD s

def text? : Reader (List Char)
  | '\x22' :: '\x22' :: '\x22' :: rest => multiBasicBody false (dropFirstNewline rest)
  | '\x27' :: '\x27' :: '\x27' :: rest => multiLiteralBody (dropFirstNewline rest)
  | '\x22' :: rest => basicBody rest
  | '\x27' :: rest => literalBody rest
  | _ => none

def isBareKey (c : Char) : Bool :=
  c.isAlphanum || c == '-' || c == '_'

def simpleKey? (s : List Char) : Option (String × List Char) :=
  match s with
  | '\x22' :: rest => (basicBody rest).map fun (k, rest) => (.ofList k, rest)
  | '\x27' :: rest => (literalBody rest).map fun (k, rest) => (.ofList k, rest)
  | s =>
    match s.takeWhile isBareKey with
    | [] => none
    | key => some (.ofList key, s.dropWhile isBareKey)

def depthLimit : Nat := 80

def dottedKey? : Nat → Reader (List String)
  | 0, _ => none
  | fuel + 1, s => do
    let (key, rest) ← simpleKey? s
    match skipWhite rest with
    | '.' :: more => do
      let (keys, rest) ← dottedKey? fuel (skipWhite more)
      return (key :: keys, rest)
    | rest => return ([key], rest)

def key? : Reader (List String) :=
  dottedKey? (depthLimit - 1)

def endsBare (c : Char) : Bool :=
  isWhite c || c == '\n' || c == '\r' || c == ',' || c == ']' || c == '\x7d' || c == '#'

def digits? (isDigit : Char → Bool) : List Char → Option (List Char)
  | [] => none
  | [c] => if isDigit c then some [c] else none
  | c :: '_' :: rest => if isDigit c then (digits? isDigit rest).map (c :: ·) else none
  | c :: rest => if isDigit c then (digits? isDigit rest).map (c :: ·) else none

def splitSign : List Char → Bool × List Char
  | '+' :: rest => (false, rest)
  | '-' :: rest => (true, rest)
  | s => (false, s)

def decimal? (s : List Char) : Option (List Char) := do
  let digits ← digits? Char.isDigit s
  if digits.length > 1 && digits.head? == some '0' then none else some digits

def natOf (base : Nat) (digits : List Char) : Nat :=
  digits.foldl (fun n c => n * base + (hexValue? c).getD 0) 0

def integerLimit : Int := 9223372036854775808

def radix? (base : Nat) (isDigit : Char → Bool) (s : List Char) : Option Int := do
  let n := natOf base (← digits? isDigit s)
  if n < integerLimit then some n else none

def integer? (s : List Char) : Option Int :=
  match s with
  | '0' :: 'x' :: rest => radix? 16 (fun c => (hexValue? c).isSome) rest
  | '0' :: 'o' :: rest => radix? 8 (fun c => '0' ≤ c && c ≤ '7') rest
  | '0' :: 'b' :: rest => radix? 2 (fun c => c == '0' || c == '1') rest
  | s => do
    let (negative, s) := splitSign s
    let n : Int := natOf 10 (← decimal? s)
    let n := if negative then -n else n
    if -integerLimit ≤ n ∧ n < integerLimit then some n else none

def exceedsDouble (digits : List Char) (exponent : Int) : Bool :=
  let m := natOf 10 digits
  let size := (digits.dropWhile (· == '0')).length + exponent
  if m == 0 || size < 300 then false
  else if 400 < size then true
  else
    let bound := Nat.pow 2 1024 - Nat.pow 2 970
    if 0 ≤ exponent then bound ≤ m * Nat.pow 10 exponent.toNat
    else bound * Nat.pow 10 (-exponent).toNat ≤ m

def exponent? : List Char → Option Int
  | [] => some 0
  | c :: rest =>
    if c == 'e' || c == 'E' then do
      let (negative, s) := splitSign rest
      let n : Int := natOf 10 (← digits? Char.isDigit s)
      some (if negative then -n else n)
    else none

def isFloat (s : List Char) : Bool :=
  let (negative, s) := splitSign s
  if s = "inf".toList || s = "nan".toList then true
  else
    let inDigits := fun c : Char => c.isDigit || c == '_'
    let whole := s.takeWhile inDigits
    let rest := s.dropWhile inDigits
    let (fraction, power) := match rest with
      | '.' :: more => (some (more.takeWhile inDigits), more.dropWhile inDigits)
      | more => (none, more)
    match decimal? whole, fraction.map (digits? Char.isDigit), exponent? power with
    | some _, none, some _ => !power.isEmpty && accepted negative whole [] power
    | some _, some (some fraction), some _ => accepted negative whole fraction power
    | _, _, _ => false
where
  accepted (negative : Bool) (whole fraction power : List Char) : Bool :=
    let exponent := (exponent? power).getD 0 - fraction.length
    negative || !exceedsDouble (whole.filter Char.isDigit ++ fraction) exponent

def skipChar? (c : Char) : List Char → Option (List Char)
  | d :: rest => if c = d then some rest else none
  | [] => none

end Lexeme

end ScoreDesk.Toml
