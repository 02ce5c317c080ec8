import ScoreDesk.Transport.Basic

namespace ScoreDesk.Transport

/-- What plays files. `World` is all that its calls may read and change, and `Engine` names a loaded
    file. Every call may fail, and may do so differently each time. -/
structure Device (World Engine : Type) where
  load : Path → World → Except TransportError Engine × World
  play : Engine → World → Except TransportError Unit × World
  pause : Engine → World → Except TransportError Unit × World
  stop : Engine → World → Except TransportError Unit × World
  seek : Engine → Nat → World → Except TransportError Unit × World
  position : Engine → World → Nat × World
  duration : Engine → World → Nat × World
  ended : Engine → World → Bool × World

inductive Call (Engine : Type) where
  | load (path : Path) (result : Option Engine)
  | play (engine : Engine)
  | pause (engine : Engine)
  | stop (engine : Engine)
  | seek (engine : Engine) (ms : Nat)
  | look (engine : Engine)
  deriving DecidableEq, Repr

namespace Device

variable {World Engine : Type}

/-- The same device with a number for each engine, counted from 0 in the order of the loads, and a
    list of all calls. -/
def recorded (d : Device World Engine) :
    Device (World × Nat × List (Call Nat)) (Nat × Engine) where
  load path := fun (w, next, calls) =>
    match d.load path w with
    | (.ok e, w) => (.ok (next, e), w, next + 1, calls ++ [.load path (some next)])
    | (.error x, w) => (.error x, w, next, calls ++ [.load path none])
  play := fun (i, e) (w, next, calls) =>
    let (r, w) := d.play e w
    (r, w, next, calls ++ [.play i])
  pause := fun (i, e) (w, next, calls) =>
    let (r, w) := d.pause e w
    (r, w, next, calls ++ [.pause i])
  stop := fun (i, e) (w, next, calls) =>
    let (r, w) := d.stop e w
    (r, w, next, calls ++ [.stop i])
  seek := fun (i, e) ms (w, next, calls) =>
    let (r, w) := d.seek e ms w
    (r, w, next, calls ++ [.seek i ms])
  position := fun (i, e) (w, next, calls) =>
    let (r, w) := d.position e w
    (r, w, next, calls ++ [.look i])
  duration := fun (i, e) (w, next, calls) =>
    let (r, w) := d.duration e w
    (r, w, next, calls ++ [.look i])
  ended := fun (i, e) (w, next, calls) =>
    let (r, w) := d.ended e w
    (r, w, next, calls ++ [.look i])

def afterStep {α : Type} (call : World → α × World) :
    World × List (World → World) → α × World × List (World → World)
  | (w, []) =>
    let (a, w) := call w
    (a, w, [])
  | (w, step :: rest) =>
    let (a, w) := call (step w)
    (a, w, rest)

/-- The same device in a world that moves by itself between the calls. -/
def amid (d : Device World Engine) : Device (World × List (World → World)) Engine where
  load path := afterStep (d.load path)
  play e := afterStep (d.play e)
  pause e := afterStep (d.pause e)
  stop e := afterStep (d.stop e)
  seek e ms := afterStep (d.seek e ms)
  position e := afterStep (d.position e)
  duration e := afterStep (d.duration e)
  ended e := afterStep (d.ended e)

end Device

end ScoreDesk.Transport
