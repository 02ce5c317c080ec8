import Mathlib
import ScoreDesk.Check.Session

namespace ScoreDesk.Check

open Compile (CompileError)
open Report (Document)

/-- What happens next to a session: its caller asks for something, or no longer waits for its check;
    the timer of a job rings; a running check leaves its file behind, or comes back. In between time
    passes and files change. -/
inductive Turn where
  | trigger (document : Document)
  | checkNow (document : Document)
  | close (file : Path)
  | abandon
  | ring (i : Nat)
  | litter (i : Nat)
  | finish (i : Nat) (result : Except CompileError String)
  | wait (ms : Nat)
  | drift (change : FileTree → FileTree)

def Turn.Supersedes (document : Document) : Turn → Prop
  | .trigger _ => True
  | .checkNow _ => True
  | .close file => document.path.same file = true
  | _ => False

def Turn.job? : Turn → Option Nat
  | .ring i => some i
  | .litter i => some i
  | .finish i _ => some i
  | _ => none

namespace Job

def lets (time : Nat) (j : Job) : Bool :=
  match j.stage with
  | .waiting due => j.aborted || time ≤ due
  | _ => true

theorem abort_not_live (j : Job) : j.abort.isLive = false := by
  unfold abort
  split
  · rename_i ended
    simp [isLive, ended]
  · simp [isLive]

@[simp] theorem wake_isLive (now : Nat) (j : Job) : (j.wake now).isLive = j.isLive := by
  obtain ⟨document, stage, aborted⟩ := j
  cases stage with
  | waiting due =>
    dsimp only [wake]
    split
    · rfl
    · rfl
  | running => rfl
  | ended => rfl

theorem not_ended_of_live {j : Job} (live : j.isLive = true) : j.stage ≠ .ended := by
  intro ended
  simp [isLive, ended] at live

section Dead

variable {j : Job}

theorem dead_cases (dead : j.isLive = false) : j.aborted = true ∨ j.stage = .ended := by
  simpa [isLive, or_comm, imp_iff_not_or] using dead

theorem abort_of_dead (dead : j.isLive = false) : j.abort = j := by
  obtain ⟨document, stage, aborted⟩ := j
  rcases dead_cases dead with rfl | rfl
  · simp [abort]
  · rfl

theorem wake_of_dead (dead : j.isLive = false) (now : Nat) : j.wake now = j := by
  obtain ⟨document, stage, aborted⟩ := j
  rcases dead_cases dead with rfl | rfl
  · cases stage <;> simp [wake]
  · rfl

end Dead

@[simp] theorem abort_abort (j : Job) : j.abort.abort = j.abort :=
  abort_of_dead j.abort_not_live

end Job

namespace Session

def pass (s : Session) (ms : Nat) : Session :=
  if s.jobs.all (Job.lets (s.now + ms)) then { s with now := s.now + ms } else s

def turn (s : Session) : Turn → Session
  | .trigger document => s.trigger document
  | .checkNow document => s.begin document
  | .close file => s.close file
  | .abandon => s.abandon
  | .ring i => s.wake i
  | .litter i => s.litter i
  | .finish i result => s.finish i result
  | .wait ms => s.pass ms
  | .drift change => { s with tree := change s.tree }

def run (s : Session) (turns : List Turn) : Session :=
  turns.foldl turn s

@[simp] theorem run_append (s : Session) (turns later : List Turn) :
    s.run (turns ++ later) = (s.run turns).run later :=
  List.foldl_append

@[simp] theorem run_cons (s : Session) (t : Turn) (later : List Turn) :
    s.run (t :: later) = (s.turn t).run later :=
  rfl

@[simp] theorem run_nil (s : Session) : s.run [] = s := rfl

section Steps

variable (s : Session) (k : Nat)

theorem getElem?_abandon :
    s.abandon.jobs[k]? =
      if s.awaited = some k then s.jobs[k]?.map Job.abort else s.jobs[k]? := by
  unfold abandon
  cases s.awaited with
  | none => simp
  | some i =>
    simp only [abort, List.getElem?_modify, Option.some.injEq]
    split
    · rfl
    · exact Option.map_id'

theorem getElem?_cancel :
    s.cancel.jobs[k]? =
      if s.pending = some k then s.jobs[k]?.map Job.abort else s.jobs[k]? := by
  unfold cancel
  cases s.pending with
  | none => simp
  | some i =>
    simp only [abort, List.getElem?_modify, Option.some.injEq]
    split
    · rfl
    · exact Option.map_id'

@[simp] theorem abandon_awaited : s.abandon.awaited = none := by
  unfold abandon
  split
  · assumption
  · rfl

@[simp] theorem abandon_pending : s.abandon.pending = s.pending := by
  unfold abandon
  split <;> rfl

@[simp] theorem cancel_pending : s.cancel.pending = none := by
  unfold cancel
  split
  · assumption
  · rfl

@[simp] theorem cancel_awaited : s.cancel.awaited = s.awaited := by
  unfold cancel
  split <;> rfl

@[simp] theorem length_abandon : s.abandon.jobs.length = s.jobs.length := by
  unfold abandon
  split
  · rfl
  · exact List.length_modify _ _ _

@[simp] theorem length_cancel : s.cancel.jobs.length = s.jobs.length := by
  unfold cancel
  split
  · rfl
  · exact List.length_modify _ _ _

theorem getElem?_cleared :
    s.abandon.cancel.jobs[k]? =
      if s.awaited = some k ∨ s.pending = some k then s.jobs[k]?.map Job.abort
      else s.jobs[k]? := by
  rw [getElem?_cancel, abandon_pending, getElem?_abandon]
  by_cases awaited : s.awaited = some k <;> by_cases pending : s.pending = some k
  · simp [awaited, pending, Function.comp_def]
  · simp [awaited, pending]
  · simp [awaited, pending]
  · simp [awaited, pending]

end Steps

section Dead

variable {s : Session} {i : Nat} {j : Job}

theorem running?_of_dead (found : s.jobs[i]? = some j) (dead : j.isLive = false) :
    s.running? i = none := by
  unfold running?
  rw [found]
  obtain ⟨document, stage, aborted⟩ := j
  rcases Job.dead_cases dead with rfl | rfl
  · cases stage <;> rfl
  · rfl

theorem modify_same {f : Job → Job} (found : s.jobs[i]? = some j) (same : f j = j) :
    s.jobs.modify i f = s.jobs := by
  refine List.ext_getElem? fun k => ?_
  rw [List.getElem?_modify]
  by_cases here : i = k
  · subst here
    simp [found, same]
  · simp [here]

theorem turn_of_dead (found : s.jobs[i]? = some j) (dead : j.isLive = false) {t : Turn}
    (own : t.job? = some i) : s.turn t = s := by
  have idle := running?_of_dead found dead
  cases t with
  | ring k =>
    obtain rfl : k = i := Option.some.inj own
    simp only [turn, wake, modify_same found (Job.wake_of_dead dead s.now)]
  | litter k =>
    obtain rfl : k = i := Option.some.inj own
    simp only [turn, litter, idle]
  | finish k result =>
    obtain rfl : k = i := Option.some.inj own
    simp only [turn, finish, idle]
  | _ => cases own

end Dead

end Session

inductive Job.Becomes (s : Session) (k : Nat) (j : Job) : Turn → Job → Prop where
  | same {t : Turn} : Becomes s k j t j
  | aborted {t : Turn} : Becomes s k j t j.abort
  | woken : Becomes s k j (.ring k) (j.wake s.now)
  | ended {result : Except CompileError String} (running : s.running? k = some j.document) :
      Becomes s k j (.finish k result) { j with stage := .ended }

namespace Session

section Turns

variable {s : Session} {k : Nat} {j : Job}

theorem running?_eq_some {document : Document} (running : s.running? k = some document) :
    s.jobs[k]? = some { document, stage := .running } := by
  unfold running? at running
  split at running
  · rename_i here found
    rw [found, ← Option.some.inj running]
  · cases running

theorem finish_jobs (s : Session) {i : Nat} {document : Document}
    (running : s.running? i = some document) (result : Except CompileError String) :
    (s.finish i result).jobs = s.jobs.modify i fun job => { job with stage := .ended } := by
  simp only [finish, running]
  cases result <;> rfl

theorem finish_pending (s : Session) (i : Nat) (result : Except CompileError String) :
    (s.finish i result).pending = s.pending := by
  unfold finish
  split
  · cases result <;> rfl
  · rfl

theorem finish_awaited (s : Session) (i : Nat) (result : Except CompileError String) :
    (s.finish i result).awaited = s.awaited := by
  unfold finish
  split
  · cases result <;> rfl
  · rfl

theorem litter_jobs (s : Session) (i : Nat) : (s.litter i).jobs = s.jobs := by
  unfold litter
  split <;> rfl

theorem pass_jobs (s : Session) (ms : Nat) : (s.pass ms).jobs = s.jobs := by
  unfold pass
  split <;> rfl

theorem becomes_abandon (found : s.jobs[k]? = some j) (t : Turn) :
    ∃ j', s.abandon.jobs[k]? = some j' ∧ j.Becomes s k t j' := by
  rw [getElem?_abandon, found]
  split
  · exact ⟨_, rfl, .aborted⟩
  · exact ⟨_, rfl, .same⟩

theorem becomes_cleared (found : s.jobs[k]? = some j) (t : Turn) :
    ∃ j', s.abandon.cancel.jobs[k]? = some j' ∧ j.Becomes s k t j' := by
  rw [getElem?_cleared, found]
  split
  · exact ⟨_, rfl, .aborted⟩
  · exact ⟨_, rfl, .same⟩

theorem becomes_append (found : s.jobs[k]? = some j) (t : Turn) (job : Job) :
    ∃ j', (s.abandon.cancel.jobs ++ [job])[k]? = some j' ∧ j.Becomes s k t j' := by
  obtain ⟨inside, _⟩ := List.getElem?_eq_some_iff.1 found
  rw [List.getElem?_append_left (by simpa using inside)]
  exact becomes_cleared found t

/-- All that can happen to a job in a turn. -/
theorem becomes_turn (found : s.jobs[k]? = some j) (t : Turn) :
    ∃ j', (s.turn t).jobs[k]? = some j' ∧ j.Becomes s k t j' := by
  cases t with
  | trigger document => exact becomes_append found _ _
  | checkNow document => exact becomes_append found _ _
  | close file =>
    dsimp only [turn, close]
    split
    · exact becomes_cleared found _
    · exact becomes_abandon found _
  | abandon => exact becomes_abandon found _
  | ring i =>
    dsimp only [turn, wake]
    rw [List.getElem?_modify, found]
    by_cases here : i = k
    · subst here
      exact ⟨_, by simp, .woken⟩
    · exact ⟨j, by simp [here], .same⟩
  | litter i => exact ⟨j, (congrArg (·[k]?) (s.litter_jobs i)).trans found, .same⟩
  | finish i result =>
    cases running : s.running? i with
    | none => exact ⟨j, by simp only [turn, finish, running, found], .same⟩
    | some document =>
      dsimp only [turn]
      rw [finish_jobs s running, List.getElem?_modify, found]
      by_cases here : i = k
      · subst here
        obtain rfl := Option.some.inj ((running?_eq_some running).symm.trans found)
        exact ⟨_, by simp, .ended running⟩
      · exact ⟨j, by simp [here], .same⟩
  | wait ms => exact ⟨j, (congrArg (·[k]?) (s.pass_jobs ms)).trans found, .same⟩
  | drift change => exact ⟨j, found, .same⟩

theorem pendingJob?_abandon (pending : s.pending = some k) (found : s.jobs[k]? = some j) :
    ∃ j', s.abandon.pendingJob? = some (k, j') ∧ j'.document = j.document := by
  unfold pendingJob?
  rw [abandon_pending, pending]
  simp only [Option.bind_eq_bind, Option.bind_some, getElem?_abandon, found]
  split
  · refine ⟨j.abort, rfl, ?_⟩
    unfold Job.abort
    split <;> rfl
  · exact ⟨j, rfl, rfl⟩

theorem superseded_turn (found : s.jobs[k]? = some j)
    (handle : s.pending = some k ∨ s.awaited = some k) {t : Turn}
    (supersedes : t.Supersedes j.document) : (s.turn t).jobs[k]? = some j.abort := by
  have cleared : s.abandon.cancel.jobs[k]? = some j.abort := by
    rw [getElem?_cleared, if_pos handle.symm, found]
    rfl
  have behind (job : Job) : (s.abandon.cancel.jobs ++ [job])[k]? = some j.abort := by
    obtain ⟨inside, _⟩ := List.getElem?_eq_some_iff.1 cleared
    rw [List.getElem?_append_left inside]
    exact cleared
  cases t with
  | trigger document => exact behind _
  | checkNow document => exact behind _
  | close file =>
    change j.document.path.same file = true at supersedes
    dsimp only [turn, close]
    split
    · exact cleared
    · rename_i other
      rcases handle with pending | awaited
      · obtain ⟨j', there, document⟩ := pendingJob?_abandon pending found
        rw [there] at other
        exact absurd (by simpa [document] using supersedes) other
      · rw [getElem?_abandon, if_pos awaited, found]
        rfl
  | _ => exact absurd supersedes id

theorem dead_turn (found : s.jobs[k]? = some j) (dead : j.isLive = false) (t : Turn) :
    (s.turn t).jobs[k]? = some j := by
  obtain ⟨j', after, becomes⟩ := becomes_turn found t
  cases becomes with
  | same => exact after
  | aborted => rwa [Job.abort_of_dead dead] at after
  | woken => rwa [Job.wake_of_dead dead] at after
  | ended running => rw [running?_of_dead found dead] at running; cases running

theorem dead_run (found : s.jobs[k]? = some j) (dead : j.isLive = false) (turns : List Turn) :
    (s.run turns).jobs[k]? = some j := by
  induction turns generalizing s with
  | nil => exact found
  | cons t rest ih => exact ih (dead_turn found dead t)

theorem run_filter_dead (found : s.jobs[k]? = some j) (dead : j.isLive = false)
    (turns : List Turn) :
    s.run turns = s.run (turns.filter fun t => t.job? != some k) := by
  induction turns generalizing s with
  | nil => rfl
  | cons t rest ih =>
    have later := ih (dead_turn found dead t)
    by_cases own : t.job? = some k
    · rw [turn_of_dead found dead own] at later
      simp [own, turn_of_dead found dead own, later]
    · simp [own, later]

end Turns

/-- At most the job that the next request supersedes, or the one that is waited for, is live. -/
structure OneLive (s : Session) : Prop where
  handles : s.pending = none ∨ s.awaited = none
  single : ∀ (i : Nat) (j : Job), s.jobs[i]? = some j → j.isLive = true →
    s.pending = some i ∨ s.awaited = some i

namespace OneLive

variable {s : Session}

theorem start (tree : FileTree) (strategy : Report.Strategy) (debounceMs : Nat) :
    (Session.start tree strategy debounceMs).OneLive where
  handles := .inl rfl
  single := by simp [Session.start]

theorem abandon (one : s.OneLive) : s.abandon.OneLive where
  handles := .inr s.abandon_awaited
  single := by
    intro i j found live
    rw [getElem?_abandon] at found
    split at found
    · obtain ⟨k, _, rfl⟩ := Option.map_eq_some_iff.1 found
      rw [k.abort_not_live] at live
      cases live
    · rename_i other
      exact .inl (s.abandon_pending.trans ((one.single i j found live).resolve_right other))

theorem cancel (one : s.OneLive) : s.cancel.OneLive where
  handles := .inl s.cancel_pending
  single := by
    intro i j found live
    rw [getElem?_cancel] at found
    split at found
    · obtain ⟨k, _, rfl⟩ := Option.map_eq_some_iff.1 found
      rw [k.abort_not_live] at live
      cases live
    · rename_i other
      exact .inr (s.cancel_awaited.trans ((one.single i j found live).resolve_left other))

theorem cleared (one : s.OneLive) {i : Nat} {j : Job}
    (found : s.abandon.cancel.jobs[i]? = some j) : j.isLive = false := by
  by_contra live
  rw [Bool.not_eq_false] at live
  rcases one.abandon.cancel.single i j found live with pending | awaited
  · rw [cancel_pending] at pending
    cases pending
  · rw [cancel_awaited, abandon_awaited] at awaited
    cases awaited

theorem append (one : s.OneLive) (job : Job) {t : Session}
    (jobs : t.jobs = s.abandon.cancel.jobs ++ [job])
    (handle : t.pending = some s.jobs.length ∧ t.awaited = none ∨
      t.pending = none ∧ t.awaited = some s.jobs.length) : t.OneLive where
  handles := handle.symm.imp And.left And.right
  single := by
    intro i j found live
    rw [jobs, List.getElem?_append] at found
    split at found
    · rw [one.cleared found] at live
      cases live
    · rename_i behind
      have last : i = s.jobs.length := by
        obtain ⟨inside, _⟩ := List.getElem?_eq_some_iff.1 found
        rw [length_cancel, length_abandon] at behind inside
        rw [List.length_singleton] at inside
        omega
      rw [last]
      exact handle.imp And.left And.right

theorem modify (one : s.OneLive) {i : Nat} {f : Job → Job}
    (dies : ∀ j, (f j).isLive = true → j.isLive = true) {t : Session}
    (jobs : t.jobs = s.jobs.modify i f) (pending : t.pending = s.pending)
    (awaited : t.awaited = s.awaited) : t.OneLive where
  handles := by rw [pending, awaited]; exact one.handles
  single := by
    intro k j found live
    rw [jobs, List.getElem?_modify] at found
    obtain ⟨j, before, rfl⟩ := Option.map_eq_some_iff.1 found
    rw [pending, awaited]
    refine one.single k j before ?_
    split at live
    · exact dies j live
    · exact live

theorem of_same (one : s.OneLive) {t : Session} (jobs : t.jobs = s.jobs)
    (pending : t.pending = s.pending) (awaited : t.awaited = s.awaited) : t.OneLive where
  handles := by rw [pending, awaited]; exact one.handles
  single := by rw [jobs, pending, awaited]; exact one.single

theorem finish (one : s.OneLive) (i : Nat) (result : Except CompileError String) :
    (s.finish i result).OneLive := by
  cases running : s.running? i with
  | none => simpa only [Session.finish, running] using one
  | some document =>
    refine one.modify ?_ (finish_jobs s running result) (finish_pending s i result)
      (finish_awaited s i result)
    intro j live
    simp [Job.isLive] at live

theorem turn (one : s.OneLive) (t : Turn) : (s.turn t).OneLive := by
  cases t with
  | trigger document =>
    exact one.append _ rfl (.inl (by simp [Session.turn, trigger]))
  | checkNow document =>
    exact one.append _ rfl (.inr (by simp [Session.turn, begin]))
  | close file =>
    dsimp only [Session.turn, close]
    split
    · exact one.abandon.cancel.of_same rfl rfl rfl
    · exact one.abandon.of_same rfl rfl rfl
  | abandon => exact one.abandon
  | ring i =>
    exact one.modify (fun j live => (j.wake_isLive s.now).symm.trans live) rfl rfl rfl
  | litter i =>
    dsimp only [Session.turn, litter]
    split
    · exact one.of_same rfl rfl rfl
    · exact one
  | finish i result => exact one.finish i result
  | wait ms =>
    dsimp only [Session.turn, pass]
    split
    · exact one.of_same rfl rfl rfl
    · exact one
  | drift change => exact one.of_same rfl rfl rfl

theorem run (one : s.OneLive) (turns : List Turn) : (s.run turns).OneLive := by
  induction turns generalizing s with
  | nil => exact one
  | cons t rest ih => exact ih (one.turn t)

theorem eq_of_live (one : s.OneLive) {i k : Nat} {a b : Job} (first : s.jobs[i]? = some a)
    (second : s.jobs[k]? = some b) (live : a.isLive = true) (lives : b.isLive = true) : i = k := by
  have here := one.single i a first live
  have there := one.single k b second lives
  rcases one.handles with none | none
  · simp only [none, reduceCtorEq, false_or] at here there
    exact Option.some.inj (here.symm.trans there)
  · simp only [none, reduceCtorEq, or_false] at here there
    exact Option.some.inj (here.symm.trans there)

end OneLive

end Session

end ScoreDesk.Check
