import ScoreDesk.Midi.System

namespace ScoreDesk.Midi

structure Input where
  wanted : Option String
  opened : Option String
  deriving DecidableEq, Repr

namespace Input

def ofPattern (wanted : Option String) : Input := ⟨wanted, none⟩

def isRunning (i : Input) : Bool := i.opened.isSome

def start (system : System) (i : Input) : Except MidiError Unit × Input :=
  if i.isRunning then (.ok (), i)
  else match system.openDevice i.wanted .input with
    | .ok name => (.ok (), { i with opened := some name })
    | .error e => (.error e, i)

def stop (i : Input) : Bool × Input :=
  (i.isRunning, { i with opened := none })

def restart (system : System) (i : Input) : Except MidiError Unit × Input :=
  i.stop.2.start system

def setWanted (system : System) (wanted : Option String) (i : Input) :
    Except MidiError Unit × Input :=
  let i := { i with wanted }
  if i.isRunning then i.restart system else (.ok (), i)

end Input

end ScoreDesk.Midi
