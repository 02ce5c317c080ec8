import ScoreDesk.Text.Line

namespace ScoreDesk.Midi

inductive Direction where
  | input
  | output
  deriving DecidableEq, Repr

def Direction.word : Direction → String
  | input => "input"
  | output => "output"

inductive MidiError where
  | initFailed (reason : String)
  | noPorts (direction : Direction)
  | portNotFound (pattern : String)
  | connectionFailed (reason : String)
  | sendFailed (reason : String)
  deriving DecidableEq, Repr

def MidiError.message : MidiError → String
  | initFailed reason => "Failed to initialize MIDI: " ++ reason
  | noPorts direction => "No MIDI " ++ direction.word ++ " devices found"
  | portNotFound pattern => "Port not found: " ++ pattern
  | connectionFailed reason => "Connection failed: " ++ reason
  | sendFailed reason => "Send failed: " ++ reason

def selectDevice (names : List String) (pattern : Option String) (direction : Direction) :
    Except MidiError Nat :=
  if names.isEmpty then .error (.noPorts direction)
  else match pattern.filter (!·.isEmpty) with
    | none => .ok 0
    | some pattern =>
      match names.findIdx? (Text.contains · pattern) with
      | some index => .ok index
      | none => .error (.portNotFound pattern)

inductive System where
  | missing (reason : String)
  | present (inputs outputs : List String)
  deriving DecidableEq, Repr

namespace System

def absent : System := .missing "MIDI support could not be initialized"

def deviceNames (system : System) (direction : Direction) : Except MidiError (List String) :=
  match system, direction with
  | missing reason, _ => .error (.initFailed reason)
  | present inputs _, .input => .ok inputs
  | present _ outputs, .output => .ok outputs

def openDevice (system : System) (pattern : Option String) (direction : Direction) :
    Except MidiError String := do
  let names ← system.deviceNames direction
  let index ← selectDevice names pattern direction
  return names[index]?.getD ""

end System

end ScoreDesk.Midi
