import ScoreDesk.Midi.Message
import ScoreDesk.Midi.System

namespace ScoreDesk.Midi

open Text (Bytes)

/-- Where MIDI messages are sent to. Of the sends, counted from 0, those in `failing` fail. -/
structure Outlet where
  failing : Nat → Bool
  attempts : Nat
  sent : List Bytes

namespace Outlet

def start (failing : Nat → Bool) : Outlet := ⟨failing, 0, []⟩

def send (o : Outlet) (message : Bytes) : Except MidiError Unit × Outlet :=
  let next := { o with attempts := o.attempts + 1 }
  if o.failing o.attempts then (.error (.sendFailed s!"send {o.attempts}"), next)
  else (.ok (), { next with sent := o.sent ++ [message] })

def sendAll : Outlet → List Bytes → Except MidiError Unit × Outlet
  | o, [] => (.ok (), o)
  | o, message :: rest =>
    match o.send message with
    | (.ok (), o) => o.sendAll rest
    | (.error e, o) => (.error e, o)

def silence (o : Outlet) : Except MidiError Unit × Outlet :=
  o.sendAll allNotesOff

end Outlet

end ScoreDesk.Midi
