import ScoreDesk.Smf.Tempo

namespace ScoreDesk.Smf

structure TimedMessage where
  atMs : Nat
  bytes : Text.Bytes
  deriving DecidableEq, Repr, Inhabited

structure Timeline where
  messages : List TimedMessage
  durationMs : Nat
  deriving DecidableEq, Repr, Inhabited

namespace Timeline

def ofFile (f : File) : Timeline :=
  let base := f.timeBase
  let sorted := (f.events.filterMap channelMessageAt?).mergeSort fun a b => a.1 ≤ b.1
  { messages := sorted.map fun (tick, bytes) => ⟨base.tickToMs tick, bytes⟩
    durationMs := base.tickToMs f.lastTick }

def read (bytes : Text.Bytes) : Except SmfError Timeline := do
  return ofFile (← File.read bytes)

def indexAt (t : Timeline) (ms : Nat) : Nat :=
  (t.messages.takeWhile (·.atMs < ms)).length

end Timeline

end ScoreDesk.Smf
