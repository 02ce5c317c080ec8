import ScoreDesk.Text.Utf8

namespace ScoreDesk

inductive KeyEvent where
  | press (note velocity : Nat)
  | release (note : Nat)
  deriving DecidableEq, Repr

namespace KeyEvent

def note : KeyEvent → Nat
  | press note _ => note
  | release note => note

def isPress : KeyEvent → Bool
  | press .. => true
  | release _ => false

end KeyEvent

namespace Midi

open Text (Bytes)

def keyEvent? : Bytes → Option KeyEvent
  | status :: note :: velocity :: _ =>
    if 0x7f < note then none
    else if status &&& 0xf0 == 0x90 && 0 < velocity then some (.press note.toNat velocity.toNat)
    else if status &&& 0xf0 == 0x90 || status &&& 0xf0 == 0x80 then some (.release note.toNat)
    else none
  | _ => none

def allNotesOff : List Bytes :=
  (List.range 16).flatMap fun channel =>
    [[0xb0 ||| channel.toUInt8, 123, 0], [0xb0 ||| channel.toUInt8, 120, 0]]

end Midi

end ScoreDesk
