import Mathlib
import ScoreDesk.Proofs.Transport.Programme

namespace ScoreDesk.Transport

namespace Playhead

inductive Call where
  | start
  | pause
  | stop
  | seek (ms : Nat)
  | tick
  deriving DecidableEq, Repr

def Call.target? : Call → Option Nat
  | .stop => some 0
  | .seek ms => some ms
  | _ => none

def perform (p : Playhead) : Nat × Call → Playhead
  | (now, .start) => p.start now
  | (now, .pause) => p.pause now
  | (_, .stop) => p.stop
  | (now, .seek ms) => p.seek now ms
  | (now, .tick) => p.tick now

def run (calls : List (Nat × Call)) : Playhead := calls.foldl perform zero

/-- What a tick returns at an instant after some calls. -/
def position (calls : List (Nat × Call)) (now : Nat) : Nat :=
  ((run calls).tick now).currentMs

/-- Calls one after the other and none after an instant, whose targets are positions. -/
structure Timely (calls : List (Nat × Call)) (now : Nat) : Prop where
  ordered : calls.Pairwise fun earlier later => earlier.1 ≤ later.1
  past : ∀ call ∈ calls, call.1 ≤ now
  targets : ∀ call ∈ calls, ∀ ms ∈ call.2.target?, ms ≤ positionLimit

def base (calls : List (Nat × Call)) : Nat :=
  (calls.filterMap fun call => call.2.target?).getLast?.getD 0

/-- The stretches that a playhead has run since it was last set, by their first and last instants,
and when it began the one that goes on. -/
structure Log where
  closed : List (Nat × Nat)
  since : Option Nat
  deriving DecidableEq, Repr

namespace Log

def stretches (log : Log) (now : Nat) : List (Nat × Nat) :=
  log.closed ++ (log.since.map fun since => (since, now)).toList

def note (log : Log) : Nat × Call → Log
  | (now, .start) => { log with since := some (log.since.getD now) }
  | (now, .pause) => ⟨log.stretches now, none⟩
  | (_, .stop) => ⟨[], none⟩
  | (now, .seek _) => ⟨[], log.since.map fun _ => now⟩
  | (_, .tick) => log

def ofCalls (calls : List (Nat × Call)) : Log := calls.foldl note ⟨[], none⟩

end Log

def length (stretch : Nat × Nat) : Nat := stretch.2 - stretch.1

/-- The stretches that a playhead has run since it was last set, the last of them up to now. -/
def stretches (calls : List (Nat × Call)) (now : Nat) : List (Nat × Nat) :=
  (Log.ofCalls calls).stretches now

def timeRun (calls : List (Nat × Call)) (now : Nat) : Nat :=
  ((stretches calls now).map length).sum

/-- The whole milliseconds of some stretches, each rounded down for itself. -/
def wholeMs (stretches : List (Nat × Nat)) : Nat :=
  (stretches.map fun stretch => length stretch / 1000000).sum

@[simp] theorem wholeMs_nil : wholeMs [] = 0 := rfl

@[simp] theorem wholeMs_append (first second : List (Nat × Nat)) :
    wholeMs (first ++ second) = wholeMs first + wholeMs second := by
  simp [wholeMs]

@[simp] theorem wholeMs_singleton (since now : Nat) :
    wholeMs [(since, now)] = (now - since) / 1000000 := by
  simp [wholeMs, length]

/-- Counting stretches in whole milliseconds loses less than one for each of them. -/
theorem wholeMs_bounds (stretches : List (Nat × Nat)) :
    wholeMs stretches * 1000000 ≤ (stretches.map length).sum ∧
      (stretches.map length).sum ≤ wholeMs stretches * 1000000 + stretches.length * 999999 := by
  induction stretches with
  | nil => exact ⟨Nat.le_refl 0, Nat.le_refl 0⟩
  | cons stretch rest ih =>
    have parted : wholeMs (stretch :: rest) = length stretch / 1000000 + wholeMs rest := by
      simp [wholeMs]
    have taken : ((stretch :: rest).map length).sum = length stretch + (rest.map length).sum := by
      simp
    have least : length stretch / 1000000 * 1000000 ≤ length stretch :=
      Nat.div_mul_le_self _ _
    have most : length stretch ≤ length stretch / 1000000 * 1000000 + 999999 := by omega
    rw [parted, taken, List.length_cons]
    constructor <;> linarith [ih.1, ih.2]

theorem run_concat (calls : List (Nat × Call)) (call : Nat × Call) :
    run (calls ++ [call]) = (run calls).perform call := by
  simp [run]

theorem base_concat (calls : List (Nat × Call)) (call : Nat × Call) :
    base (calls ++ [call]) = call.2.target?.getD (base calls) := by
  unfold base
  rw [List.filterMap_append]
  cases target : call.2.target? <;> simp [target]

theorem base_append {calls between : List (Nat × Call)}
    (unset : ∀ call ∈ between, call.2.target? = none) : base (calls ++ between) = base calls := by
  unfold base
  rw [List.filterMap_append, List.filterMap_eq_nil_iff.mpr unset, List.append_nil]

namespace Log

theorem ofCalls_concat (calls : List (Nat × Call)) (call : Nat × Call) :
    ofCalls (calls ++ [call]) = (ofCalls calls).note call := by
  simp [ofCalls]

theorem wholeMs_note {now : Nat} {call : Call} (log : Log) (unset : call.target? = none) :
    wholeMs ((log.note (now, call)).stretches now) = wholeMs (log.stretches now) := by
  cases call with
  | start => cases since : log.since <;> simp [note, stretches, since]
  | pause => simp [note, stretches]
  | stop => cases unset
  | seek ms => cases unset
  | tick => rfl

theorem wholeMs_mono (log : Log) {now later : Nat} (forward : now ≤ later) :
    wholeMs (log.stretches now) ≤ wholeMs (log.stretches later) := by
  cases since : log.since with
  | none => simp [stretches, since]
  | some instant =>
    have quotients : (now - instant) / 1000000 ≤ (later - instant) / 1000000 :=
      Nat.div_le_div_right (by omega)
    simpa [stretches, since] using quotients

theorem wholeMs_foldl_le {between : List (Nat × Call)} {now later : Nat} (log : Log)
    (ordered : between.Pairwise fun earlier later => earlier.1 ≤ later.1)
    (within : ∀ call ∈ between, now ≤ call.1 ∧ call.1 ≤ later)
    (unset : ∀ call ∈ between, call.2.target? = none) (forward : now ≤ later) :
    wholeMs (log.stretches now) ≤ wholeMs ((between.foldl note log).stretches later) := by
  induction between generalizing log now with
  | nil => exact log.wholeMs_mono forward
  | cons call rest ih =>
    obtain ⟨instant, asked⟩ := call
    obtain ⟨after, ordered⟩ := List.pairwise_cons.mp ordered
    obtain ⟨⟨begins, ends⟩, within⟩ := List.forall_mem_cons.mp within
    obtain ⟨unsetHere, unset⟩ := List.forall_mem_cons.mp unset
    calc wholeMs (log.stretches now)
        ≤ wholeMs (log.stretches instant) := log.wholeMs_mono begins
      _ = wholeMs ((log.note (instant, asked)).stretches instant) :=
          (log.wholeMs_note unsetHere).symm
      _ ≤ wholeMs ((rest.foldl note (log.note (instant, asked))).stretches later) :=
          ih _ ordered (fun call member => ⟨after call member, (within call member).2⟩) unset ends

end Log

structure InOrder (stretches : List (Nat × Nat)) (now : Nat) : Prop where
  forward : ∀ stretch ∈ stretches, stretch.1 ≤ stretch.2 ∧ stretch.2 ≤ now
  apart : stretches.Pairwise fun earlier later => earlier.2 ≤ later.1

namespace InOrder

theorem nil (now : Nat) : InOrder [] now :=
  ⟨List.forall_mem_nil _, List.Pairwise.nil⟩

theorem mono {stretches : List (Nat × Nat)} {now later : Nat} (order : InOrder stretches now)
    (forward : now ≤ later) : InOrder stretches later := by
  refine ⟨fun stretch member => ?_, order.apart⟩
  have bounds := order.forward stretch member
  exact ⟨bounds.1, Nat.le_trans bounds.2 forward⟩

theorem concat {stretches : List (Nat × Nat)} {since now : Nat} (order : InOrder stretches since)
    (forward : since ≤ now) : InOrder (stretches ++ [(since, now)]) now := by
  constructor
  · intro stretch member
    rcases List.mem_append.mp member with closed | last
    · exact (order.mono forward).forward stretch closed
    · rw [List.mem_singleton.mp last]
      exact ⟨forward, Nat.le_refl now⟩
  · refine List.pairwise_append.mpr ⟨order.apart, List.pairwise_singleton _ _, ?_⟩
    intro stretch closed last member
    rw [List.mem_singleton.mp member]
    exact (order.forward stretch closed).2

end InOrder

namespace Log

def Sound (log : Log) (now : Nat) : Prop :=
  InOrder log.closed (log.since.getD now) ∧ log.since.getD now ≤ now

namespace Sound

variable {log : Log} {now : Nat}

theorem mono {later : Nat} (sound : log.Sound now) (forward : now ≤ later) : log.Sound later := by
  obtain ⟨order, begun⟩ := sound
  unfold Sound
  cases since : log.since with
  | none =>
    rw [since] at order
    exact ⟨order.mono forward, Nat.le_refl later⟩
  | some instant =>
    rw [since] at order begun
    exact ⟨order, Nat.le_trans begun forward⟩

theorem stretches_inOrder (sound : log.Sound now) : InOrder (log.stretches now) now := by
  obtain ⟨order, begun⟩ := sound
  unfold stretches
  cases since : log.since with
  | none =>
    rw [since] at order
    simpa using order
  | some instant =>
    rw [since] at order begun
    exact order.concat begun

theorem note (sound : log.Sound now) (call : Call) : (log.note (now, call)).Sound now := by
  cases call with
  | start => exact sound
  | pause => exact ⟨sound.stretches_inOrder, Nat.le_refl now⟩
  | stop => exact ⟨InOrder.nil _, Nat.le_refl now⟩
  | seek ms => exact ⟨InOrder.nil _, by cases since : log.since <;> simp [Log.note, since]⟩
  | tick => exact sound

end Sound

end Log

def origin (p : Playhead) : Nat := if p.isRunning then p.startMs else p.currentMs

theorem start_startedAt (now : Nat) (p : Playhead) :
    (p.start now).startedAt = some (p.startedAt.getD now) := by
  unfold start
  cases started : p.startedAt <;> simp [started]

theorem start_currentMs (now : Nat) (p : Playhead) : (p.start now).currentMs = p.currentMs := by
  unfold start
  cases started : p.startedAt <;> rfl

theorem start_running {p : Playhead} (running : p.isRunning = true) (now : Nat) :
    p.start now = p := by
  obtain ⟨since, started⟩ := Option.isSome_iff_exists.mp running
  rw [start, started]

theorem pause_stopped {p : Playhead} (stopped : p.isRunning = false) (now : Nat) :
    p.pause now = p := by
  have halted : p.startedAt = none := by simpa [isRunning] using stopped
  rw [pause, tick_stopped stopped, ← halted]

theorem perform_set {call : Call} {ms now : Nat} {p : Playhead} (target : call.target? = some ms) :
    (p.perform (now, call)).currentMs = ms := by
  cases call with
  | stop => exact Option.some.inj target
  | seek other => exact Option.some.inj target
  | _ => cases target

theorem perform_unset {call : Call} (unset : call.target? = none) (now : Nat) (p : Playhead) :
    (p.perform (now, call)).currentMs = p.currentMs ∨
      (p.perform (now, call)).currentMs = (p.tick now).currentMs := by
  cases call with
  | start => exact .inl (start_currentMs now p)
  | pause => exact .inr rfl
  | tick => exact .inr rfl
  | _ => cases unset

@[simp] theorem origin_start (now : Nat) (p : Playhead) : (p.start now).origin = p.origin := by
  unfold start
  cases started : p.startedAt <;> simp [origin, isRunning, started]

@[simp] theorem origin_seek (now ms : Nat) (p : Playhead) : (p.seek now ms).origin = ms :=
  ite_self ms

@[simp] theorem origin_tick (now : Nat) (p : Playhead) : (p.tick now).origin = p.origin := by
  unfold tick
  cases started : p.startedAt <;> simp [origin, isRunning, started]

/-- A playhead that has come as far as its closed stretches took. -/
structure Follows (p : Playhead) (base : Nat) (log : Log) : Prop where
  since : p.startedAt = log.since
  origin : p.origin = min (base + wholeMs log.closed) positionLimit

namespace Follows

variable {p : Playhead} {base : Nat} {log : Log}

theorem tick_currentMs (follows : p.Follows base log) (now : Nat) :
    (p.tick now).currentMs = min (base + wholeMs (log.stretches now)) positionLimit := by
  obtain ⟨since, origin⟩ := follows
  cases started : p.startedAt with
  | none =>
    simp only [Playhead.origin, isRunning, started, Option.isSome_none, Bool.false_eq_true,
      if_false] at origin
    simpa [tick, started, Log.stretches, ← since] using origin
  | some instant =>
    simp only [Playhead.origin, isRunning, started, Option.isSome_some, if_true] at origin
    simp only [tick, started, elapsedMs, origin, Log.stretches, ← since, Option.map_some,
      Option.toList_some, wholeMs_append, wholeMs_singleton]
    omega

/-- Whatever is asked of a playhead, it follows what is noted of it. -/
theorem perform (follows : p.Follows base log) (call : Nat × Call)
    (fits : ∀ ms ∈ call.2.target?, ms ≤ positionLimit) :
    (p.perform call).Follows (call.2.target?.getD base) (log.note call) := by
  obtain ⟨now, asked⟩ := call
  have reached := follows.tick_currentMs now
  obtain ⟨since, origin⟩ := follows
  cases asked with
  | start =>
    have began : (p.start now).startedAt = some (log.since.getD now) := by
      rw [start_startedAt, since]
    exact ⟨began, (origin_start now p).trans origin⟩
  | pause => exact ⟨rfl, reached⟩
  | stop => exact ⟨rfl, rfl⟩
  | seek ms =>
    have capped : ms = min (ms + 0) positionLimit := (Nat.min_eq_left (fits ms rfl)).symm
    exact ⟨congrArg (Option.map fun _ => now) since, (origin_seek now ms p).trans capped⟩
  | tick => exact ⟨(tick_startedAt now p).trans since, (origin_tick now p).trans origin⟩

end Follows

namespace Timely

variable {calls : List (Nat × Call)} {now : Nat}

theorem of_concat {call : Nat × Call} (timely : Timely (calls ++ [call]) now) :
    Timely calls call.1 where
  ordered := (List.pairwise_append.mp timely.ordered).1
  past := fun earlier member =>
    (List.pairwise_append.mp timely.ordered).2.2 earlier member call (List.mem_singleton_self call)
  targets := fun earlier member => timely.targets earlier (List.mem_append_left _ member)

theorem mono {later : Nat} (timely : Timely calls now) (forward : now ≤ later) :
    Timely calls later :=
  { timely with past := fun call member => (timely.past call member).trans forward }

theorem concat {call : Call} (timely : Timely calls now)
    (fits : ∀ ms ∈ call.target?, ms ≤ positionLimit) : Timely (calls ++ [(now, call)]) now := by
  constructor
  · refine List.pairwise_append.mpr ⟨timely.ordered, List.pairwise_singleton _ _, ?_⟩
    intro earlier member last isLast
    rw [List.mem_singleton.mp isLast]
    exact timely.past earlier member
  · intro earlier member
    rcases List.mem_append.mp member with before | last
    · exact timely.past earlier before
    · rw [List.mem_singleton.mp last]
  · intro earlier member
    rcases List.mem_append.mp member with before | last
    · exact timely.targets earlier before
    · rw [List.mem_singleton.mp last]
      exact fits

theorem follows (timely : Timely calls now) :
    (run calls).Follows (base calls) (Log.ofCalls calls) := by
  induction calls using List.reverseRecOn generalizing now with
  | nil => exact ⟨rfl, rfl⟩
  | append_singleton calls call ih =>
    rw [run_concat, base_concat, Log.ofCalls_concat]
    have last : call ∈ calls ++ [call] := by simp
    exact (ih timely.of_concat).perform call (timely.targets call last)

theorem sound (timely : Timely calls now) : (Log.ofCalls calls).Sound now := by
  induction calls using List.reverseRecOn generalizing now with
  | nil => exact ⟨InOrder.nil _, Nat.le_refl now⟩
  | append_singleton calls call ih =>
    rw [Log.ofCalls_concat]
    have last : call ∈ calls ++ [call] := by simp
    exact ((ih timely.of_concat).note call.2).mono (timely.past call last)

theorem position_eq (timely : Timely calls now) :
    position calls now = min (base calls + wholeMs (stretches calls now)) positionLimit :=
  timely.follows.tick_currentMs now

theorem position_le {between : List (Nat × Call)} {later : Nat} (timely : Timely calls now)
    (wholly : Timely (calls ++ between) later) (forward : now ≤ later)
    (after : ∀ call ∈ between, now ≤ call.1) (unset : ∀ call ∈ between, call.2.target? = none) :
    position calls now ≤ position (calls ++ between) later := by
  have within : ∀ call ∈ between, now ≤ call.1 ∧ call.1 ≤ later := fun call member =>
    ⟨after call member, wholly.past call (List.mem_append_right _ member)⟩
  have noted : Log.ofCalls (calls ++ between) = between.foldl Log.note (Log.ofCalls calls) :=
    List.foldl_append
  have grown := (Log.ofCalls calls).wholeMs_foldl_le
    (List.pairwise_append.mp wholly.ordered).2.1 within unset forward
  rw [timely.position_eq, wholly.position_eq, base_append unset]
  unfold stretches
  rw [noted]
  omega

theorem position_concat {call : Call} (timely : Timely calls now) (unset : call.target? = none) :
    position (calls ++ [(now, call)]) now = position calls now := by
  have fits : ∀ ms ∈ call.target?, ms ≤ positionLimit := by
    rw [unset]
    exact fun _ member => nomatch member
  have sameBase : base (calls ++ [(now, call)]) = base calls :=
    base_append fun last member => by rw [List.mem_singleton.mp member, unset]
  rw [(timely.concat fits).position_eq, timely.position_eq, sameBase]
  unfold stretches
  rw [Log.ofCalls_concat, Log.wholeMs_note _ unset]

theorem position_mono {later : Nat} (timely : Timely calls now) (forward : now ≤ later) :
    position calls now ≤ position calls later := by
  have grown := (Log.ofCalls calls).wholeMs_mono forward
  rw [timely.position_eq, (timely.mono forward).position_eq]
  unfold stretches
  omega

theorem currentMs_le_position (timely : Timely calls now) :
    (run calls).currentMs ≤ position calls now := by
  induction calls using List.reverseRecOn generalizing now with
  | nil => exact Nat.zero_le _
  | append_singleton calls call ih =>
    obtain ⟨instant, asked⟩ := call
    have last : (instant, asked) ∈ calls ++ [(instant, asked)] := by simp
    have fits := timely.targets _ last
    rw [run_concat]
    cases target : asked.target? with
    | some ms =>
      have limited : ms ≤ positionLimit := fits ms target
      rw [perform_set target, timely.position_eq, base_concat, target, Option.getD_some]
      omega
    | none =>
      have before := timely.of_concat
      have grown := (before.concat fits).position_mono (timely.past _ last)
      rw [before.position_concat target] at grown
      rcases perform_unset target instant (run calls) with kept | read
      · rw [kept]
        exact (ih before).trans grown
      · rw [read]
        exact grown

theorem currentMs_le {between : List (Nat × Call)} (wholly : Timely (calls ++ between) now)
    (unset : ∀ call ∈ between, call.2.target? = none) :
    (run calls).currentMs ≤ (run (calls ++ between)).currentMs := by
  induction between using List.reverseRecOn generalizing now with
  | nil => rw [List.append_nil]
  | append_singleton between call ih =>
    obtain ⟨unset, unsetLast⟩ := List.forall_mem_append.mp unset
    rw [← List.append_assoc] at wholly ⊢
    have before := wholly.of_concat
    have grown := ih before unset
    rw [run_concat]
    rcases perform_unset (unsetLast call (List.mem_singleton_self call)) call.1
      (run (calls ++ between)) with kept | read
    · exact grown.trans_eq kept.symm
    · exact (grown.trans before.currentMs_le_position).trans_eq read.symm

end Timely

theorem foldl_perform_stopped {p : Playhead} {between : List (Nat × Call)}
    (stopped : p.isRunning = false) (quiet : ∀ call ∈ between, call.2 = .pause ∨ call.2 = .tick) :
    between.foldl perform p = p := by
  induction between with
  | nil => rfl
  | cons call rest ih =>
    obtain ⟨now, asked⟩ := call
    obtain ⟨quietHere, quiet⟩ := List.forall_mem_cons.mp quiet
    have unchanged : p.perform (now, asked) = p := by
      rcases quietHere with rfl | rfl
      · exact pause_stopped stopped now
      · exact tick_stopped stopped now
    rw [List.foldl_cons, unchanged]
    exact ih quiet

/-- At any instant a tick returns the position last set and the whole milliseconds of each stretch
run since, up to the limit. So a playhead goes back only where it is set, a stopped one stays where
it is, and neither a start nor a pause moves it; a second one changes nothing at all. Below the
limit it is behind the time it ran by less than a millisecond for each stretch. -/
theorem position_is_base_and_stretches {calls : List (Nat × Call)} {now : Nat}
    (timely : Timely calls now) :
    position calls now = min (base calls + wholeMs (stretches calls now)) positionLimit ∧
    (∀ between later, Timely (calls ++ between) later → now ≤ later →
      (∀ call ∈ between, now ≤ call.1) → (∀ call ∈ between, call.2.target? = none) →
      position calls now ≤ position (calls ++ between) later ∧
        (run calls).currentMs ≤ (run (calls ++ between)).currentMs) ∧
    ((run calls).isRunning = false →
      ∀ between, (∀ call ∈ between, call.2 = .pause ∨ call.2 = .tick) →
      run (calls ++ between) = run calls ∧
        ∀ later, position (calls ++ between) later = position calls now) ∧
    (position (calls ++ [(now, .start)]) now = position calls now ∧
      (run (calls ++ [(now, .start)])).currentMs = (run calls).currentMs ∧
      position (calls ++ [(now, .pause)]) now = position calls now) ∧
    ((run calls).isRunning = true → run (calls ++ [(now, .start)]) = run calls) ∧
    ((run calls).isRunning = false → run (calls ++ [(now, .pause)]) = run calls) ∧
    InOrder (stretches calls now) now ∧
    (base calls + wholeMs (stretches calls now) ≤ positionLimit →
      position calls now * 1000000 ≤ base calls * 1000000 + timeRun calls now ∧
      base calls * 1000000 + timeRun calls now ≤
        position calls now * 1000000 + (stretches calls now).length * 999999) := by
  have reached := timely.position_eq
  refine ⟨reached, ?forth, ?still,
    ⟨timely.position_concat rfl, ?held, timely.position_concat rfl⟩,
    ?started, ?paused, timely.sound.stretches_inOrder, ?behind⟩
  case forth =>
    intro between later wholly forward after unset
    exact ⟨timely.position_le wholly forward after unset, wholly.currentMs_le unset⟩
  case still =>
    intro stopped between quiet
    have same : run (calls ++ between) = run calls := by
      unfold run at stopped ⊢
      rw [List.foldl_append, foldl_perform_stopped stopped quiet]
    refine ⟨same, fun later => ?_⟩
    unfold position
    rw [same, tick_stopped stopped, tick_stopped stopped]
  case held =>
    rw [run_concat]
    exact start_currentMs now _
  case started =>
    intro running
    rw [run_concat]
    exact start_running running now
  case paused =>
    intro stopped
    rw [run_concat]
    exact pause_stopped stopped now
  case behind =>
    intro unsaturated
    obtain ⟨least, most⟩ := wholeMs_bounds (stretches calls now)
    rw [reached, Nat.min_eq_left unsaturated]
    unfold timeRun
    constructor <;> linarith

/-- A seek to ten and then two stretches of one and a half milliseconds each: the playhead stands at
twelve, a whole millisecond behind. -/
theorem position_after_two_stretches :
    let calls : List (Nat × Call) :=
      [(0, .start), (700, .seek 10), (1500700, .pause), (2000000, .start), (2500000, .start)]
    Timely calls 3500000 ∧ stretches calls 3500000 = [(700, 1500700), (2000000, 3500000)] ∧
      position calls 3500000 = 12 ∧ position calls 3500000 * 1000000 + 1000000 =
        base calls * 1000000 + timeRun calls 3500000 ∧
      position calls 3500000 ≤ position (calls ++ [(4000000, .pause)]) 9000000 := by
  intro calls
  have timely : Timely calls 3500000 := ⟨by decide, by decide, by decide⟩
  have wholly : Timely (calls ++ [(4000000, .pause)]) 9000000 := ⟨by decide, by decide, by decide⟩
  obtain ⟨counted, forth, -⟩ := position_is_base_and_stretches timely
  refine ⟨timely, by decide +kernel, counted.trans (by decide +kernel), by decide +kernel, ?_⟩
  exact (forth _ _ wholly (by decide) (by decide) (by decide)).1

end Playhead

end ScoreDesk.Transport
