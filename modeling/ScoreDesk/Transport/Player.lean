import ScoreDesk.Midi.Outlet
import ScoreDesk.Smf.Timeline
import ScoreDesk.Transport.Playhead

namespace ScoreDesk.Transport

open Smf (Timeline TimedMessage)

inductive Emission where
  | message (message : TimedMessage)
  | silence
  deriving DecidableEq, Repr

/-- Emissions reach the outlet as far as it works: a message that fails is skipped, and silencing
    stops at the first failure. -/
def Emission.perform (outlet : Midi.Outlet) : Emission → Midi.Outlet
  | message m => (outlet.send m.bytes).2
  | silence => outlet.silence.2

/-- Plays a timeline. `cursor` counts the messages that are done, and `emitted` holds all emissions,
    oldest first. -/
structure Player where
  timeline : Timeline
  playhead : Playhead := .zero
  cursor : Nat := 0
  ended : Bool := false
  emitted : List Emission := []
  deriving Repr, Inhabited

namespace Player

def ofTimeline (timeline : Timeline) : Player := { timeline }

def silence (p : Player) : Player :=
  { p with emitted := p.emitted ++ [.silence] }

def play (now : Nat) (p : Player) : Player :=
  { p with ended := false, playhead := p.playhead.start now }

def pause (now : Nat) (p : Player) : Player :=
  { p with playhead := p.playhead.pause now }.silence

def stop (p : Player) : Player :=
  { p with playhead := p.playhead.stop, cursor := 0 }.silence

def seek (now ms : Nat) (p : Player) : Player :=
  let ms := min ms p.timeline.durationMs
  { p with playhead := p.playhead.seek now ms, cursor := p.timeline.indexAt ms }.silence

def tick (now : Nat) (p : Player) : Player :=
  { p with playhead := p.playhead.tick now }

def due (p : Player) (ms : Nat) : List TimedMessage :=
  (p.timeline.messages.drop p.cursor).takeWhile (·.atMs ≤ ms)

/-- One round of the worker, which sends what is due, and at the end rewinds and silences. -/
def work (now : Nat) (p : Player) : Player :=
  if p.playhead.isRunning then
    let p := p.tick now
    let due := p.due p.playhead.currentMs
    let p := { p with cursor := p.cursor + due.length, emitted := p.emitted ++ due.map .message }
    if p.timeline.durationMs ≤ p.playhead.currentMs && p.timeline.messages.length ≤ p.cursor then
      { p with playhead := p.playhead.stop, cursor := 0, ended := true }.silence
    else p
  else p

end Player

end ScoreDesk.Transport
