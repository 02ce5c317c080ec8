import ScoreDesk.Midi.System
import ScoreDesk.Path
import ScoreDesk.Text.Line
import ScoreDesk.Text.Digit

namespace ScoreDesk.Transport

inductive Status where
  | idle
  | playing
  | paused
  deriving DecidableEq, Repr, Inhabited

def Status.word : Status → String
  | idle => "idle"
  | playing => "playing"
  | paused => "paused"

inductive Verb where
  | pause
  | stop
  deriving DecidableEq, Repr

def Verb.word : Verb → String
  | pause => "pause"
  | stop => "stop"

inductive TransportError where
  | midiFileNotFound (source : Path)
  | invalidTransition (verb : Verb) (status : Status)
  | negativeTime (ms : Int)
  | invalidTimestamp (text : String)
  | startBeyondEnd (requested duration : String)
  | promptCancelled
  | load (path : Path) (reason : String)
  | engine (reason : String)
  | midi (error : Midi.MidiError)
  deriving DecidableEq, Repr

def TransportError.message : TransportError → String
  | midiFileNotFound source =>
    s!"Cannot find MIDI file to play for {source} - make sure you are outputting a MIDI file"
  | invalidTransition verb status =>
    "No active MIDI file to " ++ verb.word ++ " (transport is " ++ status.word ++ ")"
  | negativeTime ms => s!"Time cannot be negative: {ms}"
  | invalidTimestamp text =>
    text ++ " does not match the required syntax: /^[0-9]+:[0-5][0-9]$/. " ++
      "Valid examples: 1:23, 10:59, 0:12"
  | startBeyondEnd requested duration =>
    "Duration " ++ requested ++ " is longer than duration of actual MIDI file " ++ duration
  | promptCancelled => "Start time prompt was cancelled"
  | load path reason => s!"Failed to load MIDI file {path}: " ++ reason
  | engine reason => "Playback engine error: " ++ reason
  | midi error => error.message

def roundedSeconds (ms : Nat) : Nat :=
  ms / 1000 + if 500 ≤ ms % 1000 then 1 else 0

def twoDigits (n : Nat) : String :=
  if n < 10 then s!"0{n}" else toString n

def display (ms : Nat) : String :=
  let seconds := roundedSeconds ms
  s!"{seconds / 60}:" ++ twoDigits (seconds % 60)

def displaySigned (ms : Int) : Except TransportError String :=
  if ms < 0 then .error (.negativeTime ms) else .ok (display ms.toNat)

def msLimit : Nat := 18446744073709551616

def minutesSeconds? (text : List Char) : Option (Nat × Nat) := do
  let minutes ← Text.natBelow? msLimit (text.takeWhile Char.isDigit)
  match text.dropWhile Char.isDigit with
  | [':', tens, ones] =>
    if tens.isDigit && ones.isDigit && tens < '6' then
      return (minutes, (tens.toNat - '0'.toNat) * 10 + (ones.toNat - '0'.toNat))
    else none
  | _ => none

def parseDisplay (text : String) : Except TransportError Nat :=
  match minutesSeconds? text.toList with
  | some (minutes, seconds) =>
    let ms := (minutes * 60 + seconds) * 1000
    if ms < msLimit then .ok ms else .error (.invalidTimestamp text)
  | none => .error (.invalidTimestamp text)

/-- Where playback is to start in a file of a length; an empty answer is the beginning. -/
def startTime (durationMs : Nat) (answer : String) : Except TransportError Nat :=
  let answer := Text.trimmed answer
  if answer.isEmpty then .ok 0
  else do
    let ms ← parseDisplay answer
    if durationMs < ms then .error (.startBeyondEnd answer (display durationMs)) else .ok ms

structure State where
  status : Status
  file : Option Path
  positionMs : Nat
  durationMs : Nat
  deriving DecidableEq, Repr

namespace State

def zero : State := ⟨.idle, none, 0, 0⟩

instance : Inhabited State := ⟨zero⟩

def timestamp (s : State) : String :=
  display s.positionMs ++ " / " ++ display s.durationMs

end State

end ScoreDesk.Transport
