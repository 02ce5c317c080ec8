import ScoreDesk.Keyboard.Chord
import ScoreDesk.Midi.Message
import ScoreDesk.Settings.Basic

namespace ScoreDesk.Keyboard

structure Settings where
  accidentals : Accidentals := .sharps
  relative : Bool := false
  chords : Bool := false
  deriving DecidableEq, Repr, Inhabited

structure Session where
  settings : Settings
  chord : Chord := .empty
  pieces : List String := []

namespace Session

def start (settings : Settings) : Session := { settings }

def text (s : Session) : String :=
  String.join s.pieces

def update (s : Session) (settings : Settings) : Session :=
  if settings = s.settings then s else { s with settings, chord := .empty }

def reset (s : Session) : Session :=
  { s with chord := .empty }

def handle (s : Session) (event : KeyEvent) : Option String × Session :=
  if !Pitch.inRange event.note then (none, s)
  else
    let (group, chord) := s.chord.process event.note event.isPress s.settings.chords
    let s := { s with chord }
    match group with
    | none => (none, s)
    | some group =>
      match group.render s.settings.accidentals s.settings.relative with
      | .ok text =>
        if text.isEmpty then (none, s) else (some text, { s with pieces := s.pieces ++ [text] })
      | .error _ => (none, s)

inductive Wake where
  | event (event : KeyEvent)
  | closed
  | cancelled
  deriving DecidableEq, Repr

/-- Handles events until there are no more or the session is cancelled; then drops the notes that
    are not written. Gives the number of insertions. -/
def run (s : Session) : List Wake → Nat × Session
  | [] => (0, s.reset)
  | .closed :: _ => (0, s.reset)
  | .cancelled :: _ => (0, s.reset)
  | .event event :: rest =>
    let (text, s) := s.handle event
    let (inserted, s) := s.run rest
    (inserted + if text.isSome then 1 else 0, s)

end Session

def Settings.ofConfiguration (settings : ScoreDesk.Settings) : Except PitchError Settings := do
  return ⟨← Accidentals.parse settings.accidentals, settings.relativeMode, settings.chordMode⟩

end ScoreDesk.Keyboard
