import Mathlib
import ScoreDesk.Proofs.Check.Debounce
import ScoreDesk.Proofs.Runs

namespace ScoreDesk.Check

open Compile (CompileError)
open Report (Analysis Board Document Strategy)

def Turn.closed? : Turn → Option Path
  | .close file => some file
  | _ => none

namespace Session

/-- What a check of a document comes to: its diagnostics, or nothing where it failed. -/
def outcome (s : Session) (document : Document) : Except CompileError String → Board
  | .error _ => .empty
  | .ok output =>
    .ofAnalysis (Analysis.ofOutput (tidy s.tree document.dir) document s.strategy output)

def completes? (s : Session) : Turn → Option Board
  | .finish i result => (s.running? i).map fun document => s.outcome document result
  | _ => none

theorem completes?_eq_some {s : Session} {t : Turn} {board : Board}
    (completes : s.completes? t = some board) :
    ∃ i result document, t = .finish i result ∧ s.running? i = some document ∧
      s.outcome document result = board := by
  cases t with
  | finish i result =>
    obtain ⟨document, running, same⟩ := Option.map_eq_some_iff.1 completes
    exact ⟨i, result, document, rfl, running, same⟩
  | _ => cases completes

def CompletesNothing (s : Session) (turns : List Turn) : Prop :=
  ∀ early t late, turns = early ++ t :: late → (s.run early).completes? t = none

theorem completesNothing_append_singleton {s : Session} {turns : List Turn} {t : Turn}
    (nothing : s.CompletesNothing turns) (last : (s.run turns).completes? t = none) :
    s.CompletesNothing (turns ++ [t]) := by
  intro early other late split
  rcases split_append_singleton split with ⟨rfl, rfl, rfl⟩ | ⟨between, rfl, rfl⟩
  · exact last
  · exact nothing early other between rfl

theorem delete_empty (files : List Path) : files.foldl Board.delete .empty = .empty := by
  induction files with
  | nil => rfl
  | cons file rest ih => exact ih

section Board

variable (s : Session)

@[simp] theorem abandon_board : s.abandon.board = s.board := by
  unfold abandon
  split <;> rfl

@[simp] theorem cancel_board : s.cancel.board = s.board := by
  unfold cancel
  split <;> rfl

theorem litter_board (i : Nat) : (s.litter i).board = s.board := by
  unfold litter
  split <;> rfl

theorem pass_board (ms : Nat) : (s.pass ms).board = s.board := by
  unfold pass
  split <;> rfl

theorem close_board (file : Path) : (s.close file).board = s.board.delete file := by
  unfold close
  dsimp only
  split <;> simp

theorem finish_board (i : Nat) (result : Except CompileError String) :
    (s.finish i result).board = ((s.completes? (.finish i result)).getD s.board) := by
  simp only [finish, completes?]
  cases s.running? i with
  | none => rfl
  | some document => cases result <;> rfl

theorem turn_board (t : Turn) :
    (s.turn t).board =
      t.closed?.toList.foldl Board.delete ((s.completes? t).getD s.board) := by
  cases t with
  | close file => exact s.close_board file
  | litter i => exact s.litter_board i
  | finish i result => exact s.finish_board i result
  | wait ms => exact s.pass_board ms
  | _ => simp [turn, trigger, begin, wake, Turn.closed?, completes?]

/-- What is shown after a run is what the last completed check came to, or what was shown before if
    none completed, without the files closed since. -/
theorem run_board (turns : List Turn) :
    s.CompletesNothing turns ∧
      (s.run turns).board = (turns.filterMap Turn.closed?).foldl Board.delete s.board ∨
    ∃ early t late board, turns = early ++ t :: late ∧ (s.run early).completes? t = some board ∧
      (s.run (early ++ [t])).CompletesNothing late ∧
      (s.run turns).board = (late.filterMap Turn.closed?).foldl Board.delete board := by
  induction turns using List.reverseRecOn with
  | nil => exact .inl ⟨by simp [CompletesNothing], rfl⟩
  | append_singleton turns t ih =>
    rw [run_append, run_cons, run_nil]
    cases completes : (s.run turns).completes? t with
    | some board =>
      have closes : t.closed? = none := by
        cases t <;> first | rfl | cases completes
      refine .inr ⟨turns, t, [], board, rfl, completes, by simp [CompletesNothing], ?_⟩
      rw [turn_board, completes, closes]
      rfl
    | none =>
      have shown : ((s.run turns).turn t).board =
          t.closed?.toList.foldl Board.delete (s.run turns).board := by
        rw [turn_board, completes]
        rfl
      have files (turns : List Turn) : (turns ++ [t]).filterMap Turn.closed? =
          turns.filterMap Turn.closed? ++ t.closed?.toList := by
        rw [List.filterMap_append]
        cases closed : t.closed? <;> simp [closed]
      rcases ih with ⟨nothing, before⟩ | ⟨early, u, late, board, rfl, completed, nothing, before⟩
      · refine .inl ⟨completesNothing_append_singleton nothing completes, ?_⟩
        rw [shown, before, files, List.foldl_append]
      · refine .inr ⟨early, u, late ++ [t], board, by simp, completed, ?_, ?_⟩
        · refine completesNothing_append_singleton nothing ?_
          rwa [← run_append, List.append_assoc, List.singleton_append]
        · rw [shown, before, files, List.foldl_append]

end Board

/-- Whatever a caller asks for, and whenever timers ring and checks come back: at most one check is
    live. One that was asked for starts to run exactly at the time that its debounce ends, if
    nothing superseded it before. One that was superseded before it came back does not count for
    anything after that. What is shown is what the last completed check came to, without the files
    closed since. -/
theorem last_completed_check_is_shown (tree : FileTree) (strategy : Strategy) (debounceMs : Nat)
    (turns : List Turn) :
    let s := (start tree strategy debounceMs).run turns
    (∀ (i k : Nat) (a b : Job), s.jobs[i]? = some a → s.jobs[k]? = some b → a.isLive = true →
      b.isLive = true → i = k) ∧
    (∀ document after,
      let due := s.now + s.debounceMs
      let asked := s.turn (.trigger document)
      ((asked.run after).Started s.jobs.length ↔
        ∃ early late, after = early ++ .ring s.jobs.length :: late ∧
          (∀ t ∈ early, ¬ t.Supersedes document) ∧ (asked.run early).now = due) ∧
      (due < (asked.run after).now → (asked.run after).Started s.jobs.length ∨
        ∃ early call late, after = early ++ call :: late ∧ call.Supersedes document ∧
          (asked.run early).now ≤ due) ∧
      (∀ early call late, after = early ++ call :: late → call.Supersedes document →
        (asked.run early).now < due → ¬ (asked.run after).Started s.jobs.length)) ∧
    (∀ (i : Nat) (job : Job) t later, s.jobs[i]? = some job → job.isLive = true →
      t.Supersedes job.document →
      ((s.turn t).run later).jobs[i]? = some { job with aborted := true } ∧
      (s.turn t).run later = (s.turn t).run (later.filter fun u => u.job? != some i)) ∧
    ((s.board = .empty ∧ (start tree strategy debounceMs).CompletesNothing turns) ∨
      ∃ early i result late document, turns = early ++ .finish i result :: late ∧
        let before := (start tree strategy debounceMs).run early
        before.running? i = some document ∧
        (before.finish i result).CompletesNothing late ∧
        s.board = (late.filterMap Turn.closed?).foldl Board.delete
          (before.outcome document result)) := by
  intro s
  have one : s.OneLive := (OneLive.start tree strategy debounceMs).run turns
  refine ⟨fun i k a b first second => one.eq_of_live first second, ?_, ?_, ?_⟩
  · intro document after
    have rests := s.trigger_rests document
    refine ⟨rests.started_iff after, rests.started_or_superseded, ?_⟩
    rintro early call late rfl supersedes before
    exact rests.not_started_of_superseded supersedes before
  · intro i job t later found live supersedes
    have aborted : job.abort = { job with aborted := true } := if_neg (Job.not_ended_of_live live)
    have after := superseded_turn found (one.single i job found live) supersedes
    have dead := job.abort_not_live
    rw [aborted] at after dead
    exact ⟨dead_run after dead later, run_filter_dead after dead later⟩
  · rcases run_board (start tree strategy debounceMs) turns with ⟨nothing, shown⟩ |
      ⟨early, t, late, board, split, completes, nothing, shown⟩
    · exact .inl ⟨shown.trans (delete_empty _), nothing⟩
    · obtain ⟨i, result, document, rfl, running, rfl⟩ := completes?_eq_some completes
      rw [run_append, run_cons, run_nil] at nothing
      exact .inr ⟨early, i, result, late, document, split, running, nothing, shown⟩

end Session

end ScoreDesk.Check
