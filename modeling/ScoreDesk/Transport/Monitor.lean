import ScoreDesk.Transport.Deck

namespace ScoreDesk.Transport

inductive PollerPhase where
  | waiting
  | looking
  | finished
  deriving DecidableEq, Repr

/-- Looks at a deck again and again, next at the time `due`, which its first turn sets. Cancellation
    is noticed only while it waits. -/
structure Poller where
  due : Option Nat := none
  cancelled : Bool := false
  phase : PollerPhase := .waiting
  deriving DecidableEq, Repr

namespace Poller

def isLive (p : Poller) : Bool :=
  !p.cancelled && p.phase != .finished

/-- By how much a beat may come late and the next one still keep its time. -/
def tolerance : Nat := 5

def nextBeat (due period now : Nat) : Nat :=
  if now ≤ due + tolerance then due + period
  else due + period * ((now - due) / period + 1)

/-- A turn of a poller that waits: its first beat comes one period after its first turn. -/
def wake (period now : Nat) (p : Poller) : Poller :=
  match p.phase, p.due with
  | .waiting, none => { p with due := some (now + period) }
  | .waiting, some due =>
    if due ≤ now then { p with phase := .looking, due := some (nextBeat due period now) } else p
  | _, _ => p

end Poller

/-- A deck whose position is looked at while it plays. Times are milliseconds. `pollers` holds every
    poller there was, oldest first, and `current` the one that the next operation will cancel.
    `published` is the latest outcome, and `publications` counts them. -/
structure Monitor (World Engine : Type) where
  deck : Deck World Engine
  period : Nat
  now : Nat
  pollers : List Poller
  current : Option Nat
  published : Poll
  publications : Nat

inductive Operation where
  | play (source : Path)
  | playFrom (source : Path) (ask : String → Option String)
  | pause
  | resume (source : Path)
  | stop
  | reset

namespace Monitor

variable {World Engine : Type}

def start (world : World) (periodMs : Nat) : Monitor World Engine :=
  { deck := .empty world
    period := max periodMs 1
    now := 0
    pollers := []
    current := none
    published := .idle
    publications := 0 }

def publish (m : Monitor World Engine) (outcome : Poll) : Monitor World Engine :=
  { m with published := outcome, publications := m.publications + 1 }

def cancelPolling (m : Monitor World Engine) : Monitor World Engine :=
  match m.current with
  | none => m
  | some i =>
    { m with
      pollers := m.pollers.modify i fun p => { p with cancelled := true }
      current := none }

def startPolling (m : Monitor World Engine) : Monitor World Engine :=
  let m := m.cancelPolling
  { m with
    pollers := m.pollers ++ [{}]
    current := some m.pollers.length }

def prepare (m : Monitor World Engine) : Operation → Monitor World Engine
  | .pause => m
  | _ => m.cancelPolling

def perform (d : Device World Engine) (tree : FileTree) (m : Monitor World Engine) :
    Operation → Result × Monitor World Engine
  | .play source => started (m.deck.play d tree source)
  | .playFrom source ask => started (m.deck.playFrom d tree source ask)
  | .resume source => started (m.deck.resume d tree source)
  | .pause =>
    match m.deck.pause d with
    | (.error x, deck) => (.error x, { m with deck })
    | (.ok (), deck) => (.ok (), { m with deck }.cancelPolling.publish .paused)
  | .stop =>
    match m.deck.stop d with
    | (.error x, deck) => (.error x, { m with deck })
    | (.ok (), deck) => (.ok (), { m with deck }.publish .idle)
  | .reset => (.ok (), { m with deck := m.deck.reset d }.publish .idle)
where
  started : Result × Deck World Engine → Result × Monitor World Engine
    | (.error x, deck) => (.error x, { m with deck })
    | (.ok (), deck) => (.ok (), { m with deck }.startPolling)

def run (d : Device World Engine) (tree : FileTree) (m : Monitor World Engine) (op : Operation) :
    Result × Monitor World Engine :=
  (m.prepare op).perform d tree op

def wake (m : Monitor World Engine) (i : Nat) : Monitor World Engine :=
  { m with pollers := m.pollers.modify i (Poller.wake m.period m.now) }

def notice (m : Monitor World Engine) (i : Nat) : Monitor World Engine :=
  { m with pollers := m.pollers.modify i fun p =>
      if p.phase = .waiting ∧ p.cancelled then { p with phase := .finished } else p }

/-- A poller that has the deck looks at it, publishes what it finds, and goes on only while there is
    progress. -/
def look (d : Device World Engine) (m : Monitor World Engine) (i : Nat) : Monitor World Engine :=
  match m.pollers[i]? with
  | some { phase := .looking, .. } =>
    let (outcome, deck) := m.deck.poll d
    let phase : PollerPhase := match outcome with
      | .progress _ => .waiting
      | _ => .finished
    { m with deck, pollers := m.pollers.modify i fun p => { p with phase } }.publish outcome
  | _ => m

def waitUntil (m : Monitor World Engine) (time : Nat) : Monitor World Engine :=
  { m with now := m.now + (time - m.now) }

def nextLook? (m : Monitor World Engine) (limit : Nat) : Option (Nat × Nat) := do
  let i ← m.current
  let poller ← m.pollers[i]?
  let due ← poller.due
  if poller.phase = .waiting ∧ due < limit then return (i, due) else none

def lookAt (d : Device World Engine) (m : Monitor World Engine) (i time : Nat) :
    Monitor World Engine :=
  ((m.waitUntil time).wake i).look d i

/-- Lets time pass up to an instant, with every look in its time. A look that is due at that very
    instant is still to come. -/
def passUntil (d : Device World Engine) (limit : Nat) : Nat → Monitor World Engine →
    Monitor World Engine
  | 0, m => m.waitUntil limit
  | fuel + 1, m =>
    match m.nextLook? limit with
    | none => m.waitUntil limit
    | some (i, time) => passUntil d limit fuel (m.lookAt d i time)

/-- Every poller gets a turn, oldest first. One that was cancelled comes to rest; where its beat has
    come as well it may do either first, and those of `late` look once more. -/
def settle (d : Device World Engine) (late : Nat → Bool) (m : Monitor World Engine) :
    Monitor World Engine :=
  (List.range m.pollers.length).foldl settleOne m
where
  settleOne (m : Monitor World Engine) (i : Nat) : Monitor World Engine :=
    match m.pollers[i]? with
    | none => m
    | some p =>
      if p.cancelled then (if late i then (m.wake i).look d i else m).notice i
      else if p.due.isNone then m.wake i
      else m

/-- Every look sets the time of the next one later, so there are fewer than the limit has
    milliseconds. -/
def pass (d : Device World Engine) (late : Nat → Bool) (ms : Nat) (m : Monitor World Engine) :
    Monitor World Engine :=
  passUntil d (m.now + ms) (m.now + ms + 1) (m.settle d late)

end Monitor

end ScoreDesk.Transport
