import ScoreDesk.NoteSet

namespace ScoreDesk.Keyboard

/-- The notes of one keyboard that are not written yet: keys that are held down, and keys of a chord
    that are already released while others of it are held. -/
structure Chord where
  active : NoteSet
  released : NoteSet
  deriving DecidableEq, Inhabited

namespace Chord

def empty : Chord := ⟨.empty, .empty⟩

def flushActive (c : Chord) : Option NoteSet × Chord :=
  if c.active.isEmpty then (none, c) else (some c.active, { c with active := .empty })

/-- One key event: the group that is complete now, and what remains. Without chords every event
    completes what was held before; with chords a group is complete when the last key is up. -/
def process (c : Chord) (note : Nat) (isPress chords : Bool) : Option NoteSet × Chord :=
  match isPress, chords with
  | true, false =>
    let (flushed, c) := c.flushActive
    (flushed, { c with active := c.active.insert note })
  | true, true => (none, ⟨c.active.insert note, c.released.erase note⟩)
  | false, false =>
    let (flushed, c) := c.flushActive
    (flushed, { c with released := .empty })
  | false, true =>
    let active := c.active.erase note
    let released := c.released.insert note
    if active.isEmpty then (some released, ⟨active, .empty⟩) else (none, ⟨active, released⟩)

end Chord

end ScoreDesk.Keyboard
