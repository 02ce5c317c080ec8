import ScoreDesk.Toml.Lexeme

namespace ScoreDesk.Toml.Time

open Lexeme

structure Limits where
  hour : Nat
  zoneHour : Nat
  zoneMinute : Nat
  deriving DecidableEq, Repr

def Limits.plain : Limits := ⟨23, 23, 59⟩

def Limits.wrapped : Limits := ⟨24, 99, 99⟩

def minutesInDay : Nat := 1440

def field? (width low high : Nat) (s : List Char) : Option (Nat × List Char) :=
  let digits := s.take width
  if digits.length = width && digits.all Char.isDigit then
    let n := natOf 10 digits
    if low ≤ n ∧ n ≤ high then some (n, s.drop width) else none
  else none

def daysIn (year month : Nat) : Nat :=
  if month = 2 then
    if year % 4 = 0 ∧ (year % 100 ≠ 0 ∨ year % 400 = 0) then 29 else 28
  else if month = 4 ∨ month = 6 ∨ month = 9 ∨ month = 11 then 30
  else 31

def padded (width n : Nat) : List Char :=
  let digits := (toString n).toList
  List.replicate (width - digits.length) '0' ++ digits

def date? (s : List Char) : Option (List Char × List Char) := do
  let (year, s) ← field? 4 0 9999 s
  let (month, s) ← field? 2 1 12 (← skipChar? '-' s)
  let (day, s) ← field? 2 1 31 (← skipChar? '-' s)
  if daysIn year month < day then none
  else return (padded 4 year ++ '-' :: padded 2 month ++ '-' :: padded 2 day, s)

def secondFraction? : List Char → Option (List Char × List Char)
  | '.' :: rest =>
    match rest.takeWhile Char.isDigit with
    | [] => none
    | digits =>
      let kept := ((digits.take 9).reverse.dropWhile (· == '0')).reverse
      some (if kept.isEmpty then [] else '.' :: kept, rest.dropWhile Char.isDigit)
  | s => some ([], s)

def clock? (limits : Limits) (s : List Char) : Option (List Char × List Char) := do
  let (hour, s) ← field? 2 0 limits.hour s
  let (minute, s) ← field? 2 0 59 (← skipChar? ':' s)
  let (second, s) ← field? 2 0 60 (← skipChar? ':' s)
  let (fraction, s) ← secondFraction? s
  return (padded 2 hour ++ ':' :: padded 2 minute ++ ':' :: padded 2 second ++ fraction, s)

def zone? (limits : Limits) : List Char → Option (List Char × List Char)
  | [] => some ([], [])
  | c :: rest =>
    if c == 'Z' || c == 'z' then some (['Z'], rest)
    else if c == '+' || c == '-' then do
      let (hour, s) ← field? 2 0 limits.zoneHour rest
      let (minute, s) ← field? 2 0 limits.zoneMinute (← skipChar? ':' s)
      let minutes := hour * 60 + minute
      let sign := if c == '-' && minutes != 0 then '-' else '+'
      if minutesInDay < minutes then none
      else return (sign :: padded 2 (minutes / 60) ++ ':' :: padded 2 (minutes % 60), s)
    else none

def whole? : Option (List Char × List Char) → Option (List Char)
  | some (written, []) => some written
  | _ => none

def clockZone? (s : List Char) : Option (List Char) := do
  let (clock, s) ← clock? .plain s
  let zone ← whole? (zone? .plain s)
  return clock ++ zone

def ofLexeme? (s : List Char) : Option (List Char) :=
  match date? s with
  | some (date, []) => some date
  | some (date, c :: rest) =>
    if c == 'T' || c == 't' then (clockZone? rest).map fun clock => date ++ 'T' :: clock else none
  | none => whole? (clock? .plain s)

def clockBehind? : List Char → Option (List Char × List Char)
  | [] => some ([], [])
  | c :: rest =>
    if c == 'T' || c == 't' || c == ' ' then do
      let (clock, s) ← clock? .wrapped rest
      return ('T' :: clock, s)
    else some ([], c :: rest)

/-- The time that a table stands for: a date, which may have a time of day and a zone behind it, or
    a time of day. -/
def ofWrapped? (s : List Char) : Option (List Char) :=
  match date? s with
  | some (date, s) => do
    let (clock, s) ← clockBehind? s
    let zone ← whole? (zone? .wrapped s)
    return date ++ clock ++ zone
  | none => whole? (clock? .wrapped s)

end ScoreDesk.Toml.Time
