import Mathlib
import ScoreDesk.Proofs.Check.Jobs

namespace ScoreDesk.Check.Session

open Compile (CompileError)
open Report (Document)

section Clock

variable (s : Session)

@[simp] theorem abandon_now : s.abandon.now = s.now := by
  unfold abandon
  split <;> rfl

@[simp] theorem cancel_now : s.cancel.now = s.now := by
  unfold cancel
  split <;> rfl

@[simp] theorem abandon_debounceMs : s.abandon.debounceMs = s.debounceMs := by
  unfold abandon
  split <;> rfl

@[simp] theorem cancel_debounceMs : s.cancel.debounceMs = s.debounceMs := by
  unfold cancel
  split <;> rfl

theorem litter_now (i : Nat) : (s.litter i).now = s.now := by
  unfold litter
  split <;> rfl

theorem finish_now (i : Nat) (result : Except CompileError String) :
    (s.finish i result).now = s.now := by
  unfold finish
  split
  · cases result <;> rfl
  · rfl

theorem now_le_pass (ms : Nat) : s.now ≤ (s.pass ms).now := by
  unfold pass
  split
  · exact Nat.le_add_right s.now ms
  · exact Nat.le_refl _

theorem now_le_turn (t : Turn) : s.now ≤ (s.turn t).now := by
  cases t with
  | close file =>
    dsimp only [turn, close]
    split <;> simp
  | litter i => exact (s.litter_now i).ge
  | finish i result => exact (s.finish_now i result).ge
  | wait ms => exact s.now_le_pass ms
  | _ => simp [turn, trigger, begin, wake]

theorem now_le_run (turns : List Turn) : s.now ≤ (s.run turns).now := by
  induction turns generalizing s with
  | nil => exact Nat.le_refl _
  | cons t rest ih => exact Nat.le_trans (s.now_le_turn t) (ih (s.turn t))

end Clock

/-- A check that was asked for waits for its time, and nothing has superseded it. -/
structure Rests (s : Session) (k : Nat) (document : Document) (due : Nat) : Prop where
  job : s.jobs[k]? = some { document, stage := .waiting due }
  pending : s.pending = some k
  awaited : s.awaited = none
  early : s.now ≤ due

def Started (s : Session) (k : Nat) : Prop :=
  ∃ job, s.jobs[k]? = some job ∧ ∀ due, job.stage ≠ .waiting due

def CalledOff (s : Session) (k : Nat) : Prop :=
  ∃ job due, s.jobs[k]? = some job ∧ job.stage = .waiting due ∧ job.aborted = true

section Turns

variable {s : Session} {k due : Nat} {document : Document}

theorem Rests.not_started (rests : s.Rests k document due) : ¬ s.Started k := by
  rintro ⟨job, found, moved⟩
  obtain rfl := Option.some.inj (rests.job.symm.trans found)
  exact moved due rfl

theorem CalledOff.not_started (off : s.CalledOff k) : ¬ s.Started k := by
  obtain ⟨job, due, found, waits, _⟩ := off
  rintro ⟨other, here, moved⟩
  obtain rfl := Option.some.inj (found.symm.trans here)
  exact moved due waits

theorem Started.turn (started : s.Started k) (t : Turn) : (s.turn t).Started k := by
  obtain ⟨job, found, moved⟩ := started
  obtain ⟨job', after, becomes⟩ := becomes_turn found t
  refine ⟨job', after, ?_⟩
  cases becomes with
  | same => exact moved
  | aborted =>
    unfold Job.abort
    split <;> exact moved
  | woken =>
    unfold Job.wake
    split
    · rename_i due waits
      exact absurd waits (moved due)
    · exact moved
  | ended running => exact nofun

theorem CalledOff.turn (off : s.CalledOff k) (t : Turn) : (s.turn t).CalledOff k := by
  obtain ⟨job, due, found, waits, aborted⟩ := off
  exact ⟨job, due, dead_turn found (by simp [Job.isLive, aborted]) t, waits, aborted⟩

theorem Started.run (started : s.Started k) (turns : List Turn) : (s.run turns).Started k := by
  induction turns generalizing s with
  | nil => exact started
  | cons t rest ih => exact ih (started.turn t)

theorem CalledOff.run (off : s.CalledOff k) (turns : List Turn) : (s.run turns).CalledOff k := by
  induction turns generalizing s with
  | nil => exact off
  | cons t rest ih => exact ih (off.turn t)

theorem trigger_rests (s : Session) (document : Document) :
    (s.trigger document).Rests s.jobs.length document (s.now + s.debounceMs) where
  job := by simp [trigger]
  pending := by simp [trigger]
  awaited := by simp [trigger]
  early := by simp [trigger]

theorem Rests.supersede (rests : s.Rests k document due) {t : Turn}
    (supersedes : t.Supersedes document) : (s.turn t).CalledOff k :=
  ⟨_, due, superseded_turn rests.job (.inl rests.pending) supersedes, rfl, rfl⟩

theorem Rests.ring (rests : s.Rests k document due) (now : s.now = due) :
    (s.turn (.ring k)).Started k := by
  refine ⟨{ document, stage := .running }, ?_, nofun⟩
  simp [Session.turn, Session.wake, rests.job, Job.wake, now]

theorem Rests.of_same (rests : s.Rests k document due) {t : Session}
    (jobs : t.jobs[k]? = s.jobs[k]?) (pending : t.pending = s.pending)
    (awaited : t.awaited = s.awaited) (early : t.now ≤ due) : t.Rests k document due where
  job := jobs.trans rests.job
  pending := pending.trans rests.pending
  awaited := awaited.trans rests.awaited
  early := early

theorem Rests.turn (rests : s.Rests k document due) {t : Turn}
    (unmoved : ¬ t.Supersedes document) (silent : t = .ring k → s.now ≠ due) :
    (s.turn t).Rests k document due := by
  have abandoned : s.abandon = s := by
    unfold Session.abandon
    rw [rests.awaited]
  cases t with
  | trigger other => exact absurd trivial unmoved
  | checkNow other => exact absurd trivial unmoved
  | close file =>
    have other : document.path.same file = false := eq_false_of_ne_true unmoved
    have waits : s.pendingJob? = some (k, { document, stage := .waiting due }) := by
      unfold pendingJob?
      rw [rests.pending]
      simp [rests.job]
    have same : s.turn (.close file) = { s with board := s.board.delete file } := by
      simp only [Session.turn, close, abandoned, waits, Option.any_some, other,
        Bool.false_eq_true, if_false]
    rw [same]
    exact rests.of_same rfl rfl rfl rests.early
  | abandon =>
    rw [Session.turn, abandoned]
    exact rests
  | ring i =>
    refine rests.of_same ?_ rfl rfl rests.early
    dsimp only [Session.turn, wake]
    rw [List.getElem?_modify, rests.job]
    by_cases here : i = k
    · have early : ¬ due ≤ s.now := by
        have := silent (congrArg Turn.ring here)
        have := rests.early
        omega
      simp [Job.wake, early]
    · simp [here]
  | litter i =>
    refine rests.of_same (congrArg (·[k]?) (s.litter_jobs i)) ?_ ?_
      ((s.litter_now i).trans_le rests.early)
    · dsimp only [Session.turn, litter]
      split <;> rfl
    · dsimp only [Session.turn, litter]
      split <;> rfl
  | finish i result =>
    refine rests.of_same ?_ (finish_pending s i result) (finish_awaited s i result)
      ((s.finish_now i result).trans_le rests.early)
    dsimp only [Session.turn]
    cases running : s.running? i with
    | none => simp only [Session.finish, running]
    | some other =>
      have elsewhere : i ≠ k := by
        rintro rfl
        have found := (running?_eq_some running).symm.trans rests.job
        cases Option.some.inj found
      rw [finish_jobs s running, List.getElem?_modify]
      simp [elsewhere]
  | wait ms =>
    dsimp only [Session.turn, pass]
    split
    · rename_i passes
      have lets := List.all_eq_true.1 passes _ (List.mem_of_getElem? rests.job)
      exact rests.of_same rfl rfl rfl (by simpa [Job.lets] using lets)
    · exact rests
  | drift change => exact rests.of_same rfl rfl rfl rests.early

theorem Rests.fate (rests : s.Rests k document due) (turns : List Turn) :
    ((s.run turns).Rests k document due ∧ ∀ t ∈ turns, ¬ t.Supersedes document) ∨
    ((s.run turns).Started k ∧ ∃ early late, turns = early ++ .ring k :: late ∧
      (∀ t ∈ early, ¬ t.Supersedes document) ∧ (s.run early).now = due) ∨
    ((s.run turns).CalledOff k ∧ ∃ early call late, turns = early ++ call :: late ∧
      call.Supersedes document ∧ (s.run early).now ≤ due) := by
  induction turns using List.reverseRecOn with
  | nil => exact .inl ⟨rests, by simp⟩
  | append_singleton turns t ih =>
    rw [run_append]
    rcases ih with ⟨still, unmoved⟩ | ⟨started, early, late, rfl, unmoved, now⟩ |
      ⟨off, early, call, late, rfl, supersedes, now⟩
    · by_cases supersedes : t.Supersedes document
      · exact .inr (.inr ⟨still.supersede supersedes, turns, t, [], rfl, supersedes, still.early⟩)
      · by_cases rings : t = .ring k ∧ (s.run turns).now = due
        · obtain ⟨rfl, now⟩ := rings
          exact .inr (.inl ⟨still.ring now, turns, [], rfl, unmoved, now⟩)
        · refine .inl ⟨still.turn supersedes fun rung now => rings ⟨rung, now⟩, ?_⟩
          exact List.forall_mem_append.2 ⟨unmoved, by simpa using supersedes⟩
    · exact .inr (.inl ⟨started.turn t, early, late ++ [t], by simp, unmoved, now⟩)
    · exact .inr (.inr ⟨off.turn t, early, call, late ++ [t], by simp, supersedes, now⟩)

theorem Rests.started_iff (rests : s.Rests k document due) (turns : List Turn) :
    (s.run turns).Started k ↔ ∃ early late, turns = early ++ .ring k :: late ∧
      (∀ t ∈ early, ¬ t.Supersedes document) ∧ (s.run early).now = due := by
  constructor
  · intro started
    rcases rests.fate turns with ⟨still, _⟩ | ⟨_, rung⟩ | ⟨off, _⟩
    · exact absurd started still.not_started
    · exact rung
    · exact absurd started off.not_started
  · rintro ⟨early, late, rfl, unmoved, now⟩
    rw [run_append, run_cons]
    refine Started.run ?_ late
    rcases rests.fate early with ⟨still, _⟩ | ⟨started, _⟩ | ⟨_, before, call, after, rfl, moved, _⟩
    · exact still.ring now
    · exact started.turn _
    · exact absurd moved (unmoved call (by simp))

theorem Rests.started_or_superseded (rests : s.Rests k document due) {turns : List Turn}
    (passed : due < (s.run turns).now) :
    (s.run turns).Started k ∨ ∃ early call late, turns = early ++ call :: late ∧
      call.Supersedes document ∧ (s.run early).now ≤ due := by
  rcases rests.fate turns with ⟨still, _⟩ | ⟨started, _⟩ | ⟨_, superseded⟩
  · exact absurd still.early (Nat.not_le.2 passed)
  · exact .inl started
  · exact .inr superseded

theorem Rests.not_started_of_superseded (rests : s.Rests k document due) {early late : List Turn}
    {call : Turn} (supersedes : call.Supersedes document) (before : (s.run early).now < due) :
    ¬ (s.run (early ++ call :: late)).Started k := by
  rw [run_append, run_cons]
  refine CalledOff.not_started (CalledOff.run ?_ late)
  rcases rests.fate early with ⟨still, _⟩ | ⟨_, first, rest, rfl, _, now⟩ | ⟨off, _⟩
  · exact still.supersede supersedes
  · have later := now_le_run (s.run first) (.ring k :: rest)
    rw [run_append] at before
    omega
  · exact off.turn call

end Turns

end ScoreDesk.Check.Session
