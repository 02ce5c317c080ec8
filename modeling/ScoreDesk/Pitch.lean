import ScoreDesk.Text.Line

namespace ScoreDesk

inductive Accidentals where
  | sharps
  | flats
  deriving DecidableEq, Repr, Inhabited

inductive PitchError where
  | pitchClassOutOfRange (pitchClass : Nat)
  | octaveOutOfRange (octave : Int)
  | noteOutOfRange (note : Nat)
  | unknownAccidentals (text : String)
  deriving DecidableEq, Repr

def PitchError.message : PitchError → String
  | pitchClassOutOfRange n => s!"pitch class should be an integer within [0, 11]; got {n}"
  | octaveOutOfRange n => s!"octave number should be an integer within [0, 9]; got {n}"
  | noteOutOfRange n => s!"MIDI note should be an integer within [12, 127]; got {n}"
  | unknownAccidentals text =>
    "unknown accidentals preference `" ++ text ++ "` (expected `sharps` or `flats`)"

namespace Accidentals

def word : Accidentals → String
  | sharps => "sharps"
  | flats => "flats"

def parse (text : String) : Except PitchError Accidentals :=
  let word := Text.lower (Text.trimmed text)
  if word = "sharps" ∨ word = "sharp" then .ok sharps
  else if word = "flats" ∨ word = "flat" then .ok flats
  else .error (.unknownAccidentals text)

def classNames : Accidentals → List String
  | sharps => ["c", "cis", "d", "dis", "e", "f", "fis", "g", "gis", "a", "ais", "b"]
  | flats => ["c", "des", "d", "ees", "e", "f", "ges", "g", "aes", "a", "bes", "b"]

end Accidentals

namespace Pitch

def lowestNote : Nat := 12

def highestNote : Nat := 127

def unmarkedOctave : Nat := 3

def inRange (note : Nat) : Bool :=
  lowestNote ≤ note && note ≤ highestNote

def className (accidentals : Accidentals) (pitchClass : Nat) : Except PitchError String :=
  match accidentals.classNames[pitchClass]? with
  | some name => .ok name
  | none => .error (.pitchClassOutOfRange pitchClass)

def octaveMark (octave : Int) : Except PitchError String :=
  if 0 ≤ octave ∧ octave ≤ 9 then
    let n := octave.toNat
    .ok (.ofList (if unmarkedOctave ≤ n then List.replicate (n - unmarkedOctave) '\x27'
      else List.replicate (unmarkedOctave - n) ','))
  else .error (.octaveOutOfRange octave)

def name (accidentals : Accidentals) (relative : Bool) (note : Nat) : Except PitchError String :=
  if inRange note then do
    let name ← className accidentals (note % 12)
    if relative then return name
    return name ++ (← octaveMark (note / 12 - 1 : Nat))
  else .error (.noteOutOfRange note)

end Pitch

end ScoreDesk
