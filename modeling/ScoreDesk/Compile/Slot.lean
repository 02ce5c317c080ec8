namespace ScoreDesk.Compile

/-- Which run of the compiler counts. Runs are numbered, and the slot names the one that a kill
    would hit. `installed`, `cancelled` and `finished` list the runs to which that has happened, the
    latest first. -/
structure Slot where
  nextRun : Nat
  current : Option Nat
  installed : List Nat
  cancelled : List Nat
  finished : List Nat
  deriving DecidableEq, Repr

namespace Slot

def empty : Slot := ⟨0, none, [], [], []⟩

instance : Inhabited Slot := ⟨empty⟩

def isRunning (s : Slot) : Bool := s.current.isSome

def number (s : Slot) : Nat × Slot :=
  (s.nextRun, { s with nextRun := s.nextRun + 1 })

def install (run : Nat) (s : Slot) : Slot :=
  { s with
    current := some run
    installed := run :: s.installed
    cancelled := s.current.toList ++ s.cancelled }

def finish (run : Nat) (s : Slot) : Slot :=
  { s with
    current := if s.current = some run then none else s.current
    finished := run :: s.finished }

def kill (s : Slot) : Bool × Slot :=
  match s.current with
  | none => (false, s)
  | some run => (true, { s with current := none, cancelled := run :: s.cancelled })

end Slot

end ScoreDesk.Compile
