namespace ScoreDesk.Transport

/-- Positions fit 64 bits and stay at the top when they would exceed them. -/
def positionLimit : Nat := 18446744073709551615

/-- How far playback has come. Instants are nanoseconds, positions are milliseconds. -/
structure Playhead where
  startedAt : Option Nat
  startMs : Nat
  currentMs : Nat
  deriving DecidableEq, Repr

def elapsedMs (since now : Nat) : Nat :=
  min ((now - since) / 1000000) positionLimit

namespace Playhead

def zero : Playhead := ⟨none, 0, 0⟩

instance : Inhabited Playhead := ⟨zero⟩

def isRunning (p : Playhead) : Bool := p.startedAt.isSome

def start (now : Nat) (p : Playhead) : Playhead :=
  match p.startedAt with
  | none => { p with startedAt := some now, startMs := p.currentMs }
  | some _ => p

def tick (now : Nat) (p : Playhead) : Playhead :=
  match p.startedAt with
  | none => p
  | some since => { p with currentMs := min (p.startMs + elapsedMs since now) positionLimit }

def pause (now : Nat) (p : Playhead) : Playhead :=
  { p.tick now with startedAt := none }

def stop (_ : Playhead) : Playhead := zero

def seek (now ms : Nat) (p : Playhead) : Playhead :=
  ⟨p.startedAt.map fun _ => now, ms, ms⟩

end Playhead

end ScoreDesk.Transport
