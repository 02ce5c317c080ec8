import ScoreDesk.Check.Checker

namespace ScoreDesk.Check

open Compile (CompileError)
open Report (Analysis Board Document Strategy)

structure Verdict where
  document : Path
  analysis : Analysis
  deriving DecidableEq, Repr

inductive Stage where
  | waiting (due : Nat)
  | running
  | ended
  deriving DecidableEq, Repr

structure Job where
  document : Document
  stage : Stage
  aborted : Bool := false
  deriving DecidableEq, Repr

namespace Job

def isLive (j : Job) : Bool :=
  !j.aborted && j.stage != .ended

def abort (j : Job) : Job :=
  if j.stage = .ended then j else { j with aborted := true }

def wake (now : Nat) (j : Job) : Job :=
  match j.stage with
  | .waiting due => if due ≤ now ∧ !j.aborted then { j with stage := .running } else j
  | _ => j

end Job

/-- Checks documents some time after they change. Times are milliseconds. `jobs` holds every check
    there was, oldest first; `pending` is the one that the next request supersedes, and `awaited`
    one that runs at once, while its caller waits for it. `board` shows the diagnostics, `latest`
    is the last verdict and `verdicts` counts them. -/
structure Session where
  tree : FileTree
  strategy : Strategy
  debounceMs : Nat
  now : Nat
  board : Board
  jobs : List Job
  pending : Option Nat
  awaited : Option Nat
  latest : Option Verdict
  verdicts : Nat

namespace Session

def start (tree : FileTree) (strategy : Strategy) (debounceMs : Nat) : Session :=
  { tree
    strategy
    debounceMs
    now := 0
    board := .empty
    jobs := []
    pending := none
    awaited := none
    latest := none
    verdicts := 0 }

def pendingJob? (s : Session) : Option (Nat × Job) := do
  let i ← s.pending
  return (i, ← s.jobs[i]?)

def isPending (s : Session) : Bool :=
  s.pendingJob?.any fun (_, job) => job.stage != .ended

def abort (s : Session) (i : Nat) : Session :=
  { s with jobs := s.jobs.modify i Job.abort }

def cancel (s : Session) : Session :=
  match s.pending with
  | none => s
  | some i => { s.abort i with pending := none }

def abandon (s : Session) : Session :=
  match s.awaited with
  | none => s
  | some i => { s.abort i with awaited := none }

def trigger (s : Session) (document : Document) : Session :=
  let s := s.abandon.cancel
  { s with
    jobs := s.jobs ++ [{ document, stage := .waiting (s.now + s.debounceMs) }]
    pending := some s.jobs.length }

def begin (s : Session) (document : Document) : Session :=
  let s := s.abandon.cancel
  { s with
    jobs := s.jobs ++ [{ document, stage := .running }]
    awaited := some s.jobs.length }

def wake (s : Session) (i : Nat) : Session :=
  { s with jobs := s.jobs.modify i (Job.wake s.now) }

def running? (s : Session) (i : Nat) : Option Document :=
  match s.jobs[i]? with
  | some { document, stage := .running, aborted := false } => some document
  | _ => none

def litter (s : Session) (i : Nat) : Session :=
  match s.running? i with
  | some document => { s with tree := leaveTemporary s.tree document.dir }
  | none => s

/-- A running check has come back: the board shows its diagnostics and nothing else, or nothing
    where it failed. -/
def finish (s : Session) (i : Nat) (result : Except CompileError String) : Session :=
  match s.running? i with
  | some document =>
    let s := { s with
      jobs := s.jobs.modify i fun job => { job with stage := .ended }
      tree := tidy s.tree document.dir }
    match result with
    | .error _ => { s with board := s.board.clear }
    | .ok output =>
      let analysis := Analysis.ofOutput s.tree document s.strategy output
      { s with
        board := s.board.replaceWith analysis
        latest := some ⟨document.path, analysis⟩
        verdicts := s.verdicts + 1 }
  | none => s

def settle (s : Session) (result : Except CompileError String) : Session :=
  match s.awaited with
  | some i => s.finish i result
  | none => s

def close (s : Session) (file : Path) : Session :=
  let s := s.abandon
  let s := if s.pendingJob?.any fun (_, job) => job.document.path.same file then s.cancel else s
  { s with board := s.board.delete file }

end Session

end ScoreDesk.Check
