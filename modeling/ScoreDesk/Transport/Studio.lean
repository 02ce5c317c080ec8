import ScoreDesk.FileTree
import ScoreDesk.Transport.Device
import ScoreDesk.Transport.Player

namespace ScoreDesk.Transport

open Smf (Timeline)

structure Studio where
  tree : FileTree
  system : Midi.System
  output : Option String
  now : Nat
  players : List Player

namespace Studio

def update (s : Studio) (i : Nat) (f : Player → Player) : Studio :=
  { s with players := s.players.modify i f }

def load (s : Studio) (path : Path) : Except TransportError Player := do
  let content ← (s.tree.read path).mapError fun e => .load path e.message
  let timeline ← (Timeline.read content).mapError fun e => .load path e.message
  let _ ← (s.system.openDevice s.output .output).mapError .midi
  return .ofTimeline timeline

def work (s : Studio) (i now : Nat) : Studio :=
  { s with now := max s.now now }.update i (·.work (max s.now now))

def device : Device Studio Nat where
  load path s :=
    match s.load path with
    | .error e => (.error e, s)
    | .ok player => (.ok s.players.length, { s with players := s.players ++ [player] })
  play i s := (.ok (), s.update i (·.play s.now))
  pause i s := (.ok (), s.update i (·.pause s.now))
  stop i s := (.ok (), s.update i (·.stop))
  seek i ms s := (.ok (), s.update i (·.seek s.now ms))
  position i s :=
    let s := s.update i (·.tick s.now)
    (((s.players[i]?).map (·.playhead.currentMs)).getD 0, s)
  duration i s := (((s.players[i]?).map (·.timeline.durationMs)).getD 0, s)
  ended i s := (((s.players[i]?).map (·.ended)).getD false, s)

end Studio

end ScoreDesk.Transport
