import ScoreDesk.Smf.File

namespace ScoreDesk.Smf

/-- Times are 64 bits wide and stay at the top when they would exceed them. -/
def timeLimit : Nat := 18446744073709551615

def addTime (a b : Nat) : Nat := min (a + b) timeLimit

def mulTime (a b : Nat) : Nat := min (a * b) timeLimit

structure TempoChange where
  tick : Nat
  usPerBeat : Nat
  deriving DecidableEq, Repr

def defaultTempo : TempoChange := ⟨0, 500000⟩

def segmentEnd (tick : Nat) : List TempoChange → Nat
  | [] => tick
  | next :: _ => min next.tick tick

def usUntil (ticksPerBeat tick : Nat) : Nat → List TempoChange → Nat
  | us, [] => us
  | us, change :: rest =>
    if tick ≤ change.tick then us
    else
      let elapsed :=
        mulTime (segmentEnd tick rest - change.tick) change.usPerBeat / ticksPerBeat
      usUntil ticksPerBeat tick (addTime us elapsed) rest

def nearestQuotient (num den : Nat) : Nat :=
  let low := num / den
  let rest := num % den
  if 2 * rest < den then low else if den < 2 * rest then low + 1 else low + low % 2

def excessDigits (num den : Nat) : Nat :=
  (num / den).log2 + 1 - 53

/-- The quotient with its 53 leading binary digits, rounded to the nearest such number. None of its
    digits behind the point is kept. -/
def leadingDigits (num den : Nat) : Nat :=
  nearestQuotient num (den <<< excessDigits num den) <<< excessDigits num den

/-- Microseconds up to a tick where so many ticks fill so many seconds. The tick, the quotient and
    the product with a million are each kept with 53 binary digits; the quotient and the product are
    counted in parts of a power of two. The sum is rounded to the nearest microsecond, a half
    upwards. -/
def usOfTicks (ticks seconds tick : Nat) : Nat :=
  let scale := ticks.log2 + 53
  let elapsed := leadingDigits (leadingDigits tick 1 * seconds <<< scale) ticks
  let us := leadingDigits (elapsed * 1000000) 1
  min ((2 * us + 1 <<< scale) / (2 <<< scale)) timeLimit

/-- So many frames in so many seconds; 30 / 1.001 a second is rounded to 24 binary digits. -/
def FrameRate.frames : FrameRate → Nat × Nat
  | .fps24 => (24, 1)
  | .fps25 => (25, 1)
  | .fps29 => (15712926, 524288)
  | .fps30 => (30, 1)

inductive TimeBase where
  | metrical (ticksPerBeat : Nat) (changes : List TempoChange)
  | timecode (ticks seconds : Nat)
  deriving DecidableEq, Repr

namespace TimeBase

def tickToUs : TimeBase → Nat → Nat
  | metrical ticksPerBeat changes, tick => usUntil ticksPerBeat tick 0 changes
  | timecode ticks seconds, tick => usOfTicks ticks seconds tick

def tickToMs (base : TimeBase) (tick : Nat) : Nat :=
  base.tickToUs tick / 1000

end TimeBase

def absoluteFrom (tick : Nat) : Track → List (Nat × EventKind)
  | [] => []
  | event :: rest => (tick + event.delta, event.kind) :: absoluteFrom (tick + event.delta) rest

def absolute (track : Track) : List (Nat × EventKind) :=
  absoluteFrom 0 track

def tempoChange? : Nat × EventKind → Option TempoChange
  | (tick, .tempo usPerBeat) => some ⟨tick, usPerBeat⟩
  | _ => none

def channelMessageAt? : Nat × EventKind → Option (Nat × Text.Bytes)
  | (tick, .channel message) => some (tick, message)
  | _ => none

namespace File

def events (f : File) : List (Nat × EventKind) :=
  f.tracks.flatMap absolute

/-- The tempo changes of all tracks in order of their ticks. A change at the start of the file
    stands in for the default. -/
def tempoChanges (f : File) : List TempoChange :=
  let sorted := (defaultTempo :: f.events.filterMap tempoChange?).mergeSort
    fun a b => a.tick ≤ b.tick
  match sorted with
  | first :: second :: rest => if second.tick = 0 then second :: rest else first :: second :: rest
  | changes => changes

def timeBase (f : File) : TimeBase :=
  match f.timing with
  | .metrical ticksPerBeat => .metrical (max ticksPerBeat 1) f.tempoChanges
  | .timecode rate subframes =>
    let (frames, seconds) := rate.frames
    .timecode (max (frames * subframes) seconds) seconds

def lastTick (f : File) : Nat :=
  f.events.foldl (fun tick event => max tick event.1) 0

end File

end ScoreDesk.Smf
