import ScoreDesk.Transport.Device
import ScoreDesk.Transport.Rendition

namespace ScoreDesk.Transport

structure Deck (World Engine : Type) where
  engine : Option Engine
  state : State
  world : World

inductive Poll where
  | progress (timestamp : String)
  | ended
  | paused
  | idle
  deriving DecidableEq, Repr, Inhabited

abbrev Result := Except TransportError Unit

namespace Deck

variable {World Engine : Type}

def empty (world : World) : Deck World Engine := ⟨none, .zero, world⟩

def reset (d : Device World Engine) (deck : Deck World Engine) : Deck World Engine :=
  match deck.engine with
  | none => { deck with state := .zero }
  | some e => ⟨none, .zero, (d.stop e deck.world).2⟩

def load (d : Device World Engine) (path : Path) (deck : Deck World Engine) :
    Result × Deck World Engine :=
  let deck := deck.reset d
  match d.load path deck.world with
  | (.error x, world) => (.error x, { deck with world })
  | (.ok e, world) =>
    let (durationMs, world) := d.duration e world
    (.ok (), ⟨some e, { deck.state with file := some path, durationMs }, world⟩)

/-- Plays the loaded engine and then moves to the start time, unless that is the beginning. -/
def launch (d : Device World Engine) (e : Engine) (ms : Nat) (world : World) : Result × World :=
  match d.play e world with
  | (.error x, world) => (.error x, world)
  | (.ok (), world) => if ms = 0 then (.ok (), world) else d.seek e ms world

def start (d : Device World Engine) (ms : Nat) (deck : Deck World Engine) :
    Result × Deck World Engine :=
  match deck.engine with
  | none => (.error (.engine "no file loaded"), deck)
  | some e =>
    match launch d e ms deck.world with
    | (.error x, world) => (.error x, { deck with world }.reset d)
    | (.ok (), world) =>
      let state := { deck.state with status := .playing, positionMs := ms }
      (.ok (), { deck with world, state })

def cue (d : Device World Engine) (tree : FileTree) (source : Path) (deck : Deck World Engine) :
    Result × Deck World Engine :=
  match renditionOf tree source with
  | .error x => (.error x, deck)
  | .ok path => deck.load d path

def play (d : Device World Engine) (tree : FileTree) (source : Path) (deck : Deck World Engine) :
    Result × Deck World Engine :=
  match deck.cue d tree source with
  | (.error x, deck) => (.error x, deck)
  | (.ok (), deck) => deck.start d 0

def startFrom (d : Device World Engine) (answer : Option String) (deck : Deck World Engine) :
    Result × Deck World Engine :=
  match answer with
  | none => (.error .promptCancelled, deck.reset d)
  | some answer =>
    match startTime deck.state.durationMs answer with
    | .error x => (.error x, deck.reset d)
    | .ok ms => deck.start d ms

def playFrom (d : Device World Engine) (tree : FileTree) (source : Path)
    (ask : String → Option String) (deck : Deck World Engine) : Result × Deck World Engine :=
  match deck.cue d tree source with
  | (.error x, deck) => (.error x, deck)
  | (.ok (), deck) => deck.startFrom d (ask (display deck.state.durationMs))

def pause (d : Device World Engine) (deck : Deck World Engine) : Result × Deck World Engine :=
  match deck.state.status, deck.engine with
  | .playing, some e =>
    match d.pause e deck.world with
    | (.error x, world) => (.error x, { deck with world })
    | (.ok (), world) =>
      let (positionMs, world) := d.position e world
      (.ok (), { deck with world, state := { deck.state with positionMs, status := .paused } })
  | status, _ => (.error (.invalidTransition .pause status), deck)

/-- Goes on with a paused file; anything else plays the score from the beginning. -/
def resume (d : Device World Engine) (tree : FileTree) (source : Path) (deck : Deck World Engine) :
    Result × Deck World Engine :=
  match deck.state.status, deck.engine with
  | .paused, some e =>
    match d.play e deck.world with
    | (.error x, world) => (.error x, { deck with world })
    | (.ok (), world) =>
      (.ok (), { deck with world, state := { deck.state with status := .playing } })
  | _, _ => deck.play d tree source

def stop (d : Device World Engine) (deck : Deck World Engine) : Result × Deck World Engine :=
  match deck.state.status with
  | .idle => (.error (.invalidTransition .stop .idle), deck)
  | _ =>
    match deck.engine with
    | none => (.ok (), { deck with state := .zero })
    | some e =>
      match d.stop e deck.world with
      | (.error x, world) => (.error x, { deck with engine := none, world })
      | (.ok (), world) => (.ok (), ⟨none, .zero, world⟩)

/-- Looks where the engine is. An engine that has ended, or stands at zero while it plays, is done
    and is unloaded. -/
def poll (d : Device World Engine) (deck : Deck World Engine) : Poll × Deck World Engine :=
  match deck.state.status, deck.engine with
  | .playing, some e =>
    let (positionMs, world) := d.position e deck.world
    let (ended, world) := d.ended e world
    if ended || positionMs = 0 then (.ended, { deck with world }.reset d)
    else
      let (durationMs, world) := d.duration e world
      let state := { deck.state with positionMs, durationMs }
      (.progress state.timestamp, { deck with world, state })
  | .paused, _ => (.paused, deck)
  | _, _ => (.idle, deck)

end Deck

end ScoreDesk.Transport
