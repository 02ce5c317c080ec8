import ScoreDesk.Check.Session

namespace ScoreDesk.Check

open Compile (CompileError)
open Report (Document)

structure Plan where
  takesMs : Nat
  leavesTemporary : Bool
  result : Except CompileError String

/-- A session whose checks go as planned. `ends` is when the running one ends, and `started` and
    `finished` count them. -/
structure Schedule where
  session : Session
  plan : Document → Plan
  ends : Nat
  started : Nat
  finished : Nat

namespace Schedule

def ofSession (session : Session) (plan : Document → Plan) : Schedule :=
  ⟨session, plan, 0, 0, 0⟩

def launch (s : Schedule) (document : Document) : Schedule :=
  { s with ends := s.session.now + (s.plan document).takesMs, started := s.started + 1 }

def finish (s : Schedule) (i : Nat) (document : Document) : Schedule :=
  let plan := s.plan document
  let session := { s.session with now := s.ends }
  let session := if plan.leavesTemporary then session.litter i else session
  { s with session := session.finish i plan.result, finished := s.finished + 1 }

def advance (s : Schedule) (limit : Nat) : Schedule :=
  match s.session.pendingJob? with
  | some (i, { document, stage := .waiting due, .. }) =>
    if due < limit then
      { s with session := { s.session with now := max s.session.now due }.wake i }.launch document
    else s
  | some (i, { document, stage := .running, .. }) =>
    if s.ends < limit then s.finish i document else s
  | _ => s

/-- Lets time pass up to an instant; what is due at that very instant is still to come. A check that
    waits first runs and then ends, and nothing follows it. -/
def passUntil (s : Schedule) (limit : Nat) : Schedule :=
  let s := (s.advance limit).advance limit
  { s with session := { s.session with now := limit } }

def pass (s : Schedule) (ms : Nat) : Schedule :=
  s.passUntil (s.session.now + ms)

def checkNow (s : Schedule) (document : Document) : Schedule :=
  ({ s with session := s.session.begin document }.launch document).finish s.session.jobs.length
    document

end Schedule

end ScoreDesk.Check
