import Mathlib
import ScoreDesk.Compile.Compiler
import ScoreDesk.Proofs.Runs

namespace ScoreDesk.Compile

namespace Slot

variable {s : Slot} {run other : Nat}

def IsLive (s : Slot) (run : Nat) : Prop :=
  run ∈ s.installed ∧ run ∉ s.finished ∧ run ∉ s.cancelled

/-- The slot names the live run, and that is the one installed last. -/
structure Sound (s : Slot) : Prop where
  live : ∀ run, s.IsLive run ↔ s.current = some run
  latest : ∀ run, s.current = some run → s.installed.head? = some run
  known : ∀ run, run ∈ s.finished ∨ run ∈ s.cancelled → run ∈ s.installed

theorem empty_sound : empty.Sound where
  live run := by simp [IsLive, empty]
  latest run here := by cases here
  known run gone := by simp [empty] at gone

theorem mem_cancelled_install :
    other ∈ (s.install run).cancelled ↔ s.current = some other ∨ other ∈ s.cancelled := by
  simp [install]

theorem finish_current_eq_some :
    (s.finish run).current = some other ↔ s.current = some other ∧ other ≠ run := by
  unfold finish
  dsimp only
  split
  · rename_i here
    rw [here]
    simp
    exact Eq.symm
  · rename_i elsewhere
    refine ⟨fun here => ⟨here, ?_⟩, And.left⟩
    rintro rfl
    exact elsewhere here

theorem kill_fst : s.kill.1 = s.isRunning := by
  unfold kill isRunning
  cases s.current <;> rfl

theorem kill_current : s.kill.2.current = none := by
  unfold kill
  split
  · assumption
  · rfl

theorem kill_installed : s.kill.2.installed = s.installed := by
  unfold kill
  split <;> rfl

theorem kill_finished : s.kill.2.finished = s.finished := by
  unfold kill
  split <;> rfl

theorem kill_nextRun : s.kill.2.nextRun = s.nextRun := by
  unfold kill
  split <;> rfl

theorem mem_cancelled_kill :
    other ∈ s.kill.2.cancelled ↔ s.current = some other ∨ other ∈ s.cancelled := by
  unfold kill
  split
  · rename_i none
    simp [none]
  · rename_i run here
    simp [here, eq_comm]

theorem isRunning_iff : s.isRunning = true ↔ ∃ run, s.current = some run :=
  Option.isSome_iff_exists

theorem Sound.not_installed (sound : s.Sound) (fresh : run ∉ s.installed) :
    run ∉ s.finished ∧ run ∉ s.cancelled ∧ s.current ≠ some run := by
  refine ⟨fun gone => fresh (sound.known run (.inl gone)),
    fun gone => fresh (sound.known run (.inr gone)), fun here => ?_⟩
  exact fresh ((sound.live run).2 here).1

theorem Sound.install (sound : s.Sound) (fresh : run ∉ s.installed) : (s.install run).Sound where
  live other := by
    obtain ⟨unfinished, uncancelled, elsewhere⟩ := sound.not_installed fresh
    have now : (s.install run).current = some other ↔ other = run := by
      simp [Slot.install, eq_comm]
    rw [now, IsLive, mem_cancelled_install, not_or]
    constructor
    · rintro ⟨member, going, free, kept⟩
      rcases List.mem_cons.1 member with same | before
      · exact same
      · exact absurd ((sound.live other).1 ⟨before, going, kept⟩) free
    · rintro rfl
      exact ⟨List.mem_cons_self, unfinished, elsewhere, uncancelled⟩
  latest other here := here
  known other gone := by
    refine List.mem_cons_of_mem _ ?_
    rw [mem_cancelled_install] at gone
    rcases gone with finished | here | cancelled
    · exact sound.known other (.inl finished)
    · exact ((sound.live other).2 here).1
    · exact sound.known other (.inr cancelled)

theorem Sound.finish (sound : s.Sound) (installed : run ∈ s.installed) :
    (s.finish run).Sound where
  live other := by
    rw [finish_current_eq_some, ← sound.live other]
    simp only [IsLive, Slot.finish, List.mem_cons, not_or]
    tauto
  latest other here := sound.latest other (finish_current_eq_some.1 here).1
  known other gone := by
    simp only [Slot.finish, List.mem_cons] at gone
    rcases gone with (rfl | finished) | cancelled
    · exact installed
    · exact sound.known other (.inl finished)
    · exact sound.known other (.inr cancelled)

theorem Sound.kill (sound : s.Sound) : s.kill.2.Sound where
  live other := by
    rw [kill_current, IsLive, kill_installed, kill_finished, mem_cancelled_kill, not_or]
    refine ⟨fun live => ?_, fun here => by cases here⟩
    exact absurd ((sound.live other).1 ⟨live.1, live.2.1, live.2.2.2⟩) live.2.2.1
  latest other here := by
    rw [kill_current] at here
    cases here
  known other gone := by
    rw [kill_finished, mem_cancelled_kill] at gone
    rw [kill_installed]
    rcases gone with finished | here | cancelled
    · exact sound.known other (.inl finished)
    · exact ((sound.live other).2 here).1
    · exact sound.known other (.inr cancelled)

end Slot

inductive Progress where
  | numbered
  | installed
  | finished
  deriving DecidableEq, Repr

structure Job where
  number : Nat
  progress : Progress
  deriving DecidableEq, Repr

/-- A compiler and all calls that were made to it, oldest first. -/
structure Workshop where
  compiler : Compiler
  jobs : List Job

/-- What happens next: a call comes in and draws the number of its run, a call puts its run into the
    slot, a run is over, the compiler says something, or it is told to kill. -/
inductive Turn where
  | enter
  | install (i : Nat)
  | finish (i : Nat)
  | say (lines : List String)
  | kill

namespace Workshop

def start (program : Path) (additional : List String) : Workshop :=
  ⟨⟨program, additional, .empty, []⟩, []⟩

def slot (w : Workshop) : Slot := w.compiler.slot

def advance (w : Workshop) (i : Nat) (progress : Progress) (slot : Slot) : Workshop :=
  ⟨{ w.compiler with slot }, w.jobs.modify i fun job => { job with progress }⟩

def turn (w : Workshop) : Turn → Workshop
  | .enter =>
    let (number, slot) := w.slot.number
    ⟨{ w.compiler with slot }, w.jobs ++ [⟨number, .numbered⟩]⟩
  | .install i =>
    match w.jobs[i]? with
    | some ⟨number, .numbered⟩ => w.advance i .installed (w.slot.install number)
    | _ => w
  | .finish i =>
    match w.jobs[i]? with
    | some ⟨number, .installed⟩ => w.advance i .finished (w.slot.finish number)
    | _ => w
  | .say lines => { w with compiler := w.compiler.say lines }
  | .kill => { w with compiler := w.compiler.kill.2 }

def run (w : Workshop) (turns : List Turn) : Workshop :=
  turns.foldl turn w

@[simp] theorem run_append (w : Workshop) (turns later : List Turn) :
    w.run (turns ++ later) = (w.run turns).run later :=
  List.foldl_append

@[simp] theorem run_cons (w : Workshop) (t : Turn) (later : List Turn) :
    w.run (t :: later) = (w.turn t).run later :=
  rfl

@[simp] theorem run_nil (w : Workshop) : w.run [] = w := rfl

/-- A call is under way whose run was not cancelled. -/
def IsLive (w : Workshop) (run : Nat) : Prop :=
  ⟨run, .installed⟩ ∈ w.jobs ∧ run ∉ w.slot.cancelled

def KilledIn (w : Workshop) (turns : List Turn) (run : Nat) : Prop :=
  ∃ before after, turns = before ++ .kill :: after ∧ run ∉ (w.run before).slot.cancelled ∧
    run ∈ ((w.run before).turn .kill).slot.cancelled

variable {w : Workshop}

theorem kill_slot (w : Workshop) : w.compiler.kill.2.slot = w.slot.kill.2 := by
  unfold Compiler.kill Slot.kill slot
  cases w.compiler.slot.current <;> rfl

theorem kill_fst (w : Workshop) : w.compiler.kill.1 = w.slot.isRunning := by
  unfold Compiler.kill Slot.kill slot Slot.isRunning
  cases w.compiler.slot.current <;> rfl

/-- The number of a run is the place of its call among all calls, and the slot knows how far each of
    them has come. -/
structure Sound (w : Workshop) : Prop where
  slot : w.slot.Sound
  length : w.jobs.length = w.slot.nextRun
  numbers : ∀ (i : Nat) (job : Job), w.jobs[i]? = some job → job.number = i
  installed : ∀ i, i ∈ w.slot.installed ↔
    ∃ job, w.jobs[i]? = some job ∧ job.progress ≠ .numbered
  finished : ∀ i, i ∈ w.slot.finished ↔ ∃ job, w.jobs[i]? = some job ∧ job.progress = .finished

theorem start_sound (program : Path) (additional : List String) :
    (start program additional).Sound where
  slot := Slot.empty_sound
  length := rfl
  numbers i job here := by cases here
  installed i := by simp [start, slot, Slot.empty]
  finished i := by simp [start, slot, Slot.empty]

theorem Sound.of_same_jobs (sound : w.Sound) {compiler : Compiler} (slot : compiler.slot.Sound)
    (nextRun : compiler.slot.nextRun = w.slot.nextRun)
    (installed : compiler.slot.installed = w.slot.installed)
    (finished : compiler.slot.finished = w.slot.finished) :
    ({ w with compiler } : Workshop).Sound where
  slot := slot
  length := sound.length.trans nextRun.symm
  numbers := sound.numbers
  installed i := by
    change i ∈ compiler.slot.installed ↔ _
    rw [installed]
    exact sound.installed i
  finished i := by
    change i ∈ compiler.slot.finished ↔ _
    rw [finished]
    exact sound.finished i

theorem Sound.enter (sound : w.Sound) : (w.turn .enter).Sound := by
  have last (job : Job) (i : Nat) :
      (w.jobs ++ [job])[i]? = if i = w.jobs.length then some job else w.jobs[i]? := by
    rcases lt_trichotomy i w.jobs.length with older | rfl | beyond
    · rw [List.getElem?_append_left older, if_neg older.ne]
    · rw [List.getElem?_concat_length, if_pos rfl]
    · rw [if_neg beyond.ne', List.getElem?_eq_none beyond.le, List.getElem?_eq_none (by simpa)]
  refine ⟨⟨sound.slot.live, sound.slot.latest, sound.slot.known⟩, ?_, ?_, ?_, ?_⟩
  · exact (List.length_append ..).trans (congrArg (· + 1) sound.length)
  · intro i job here
    change (w.jobs ++ [_])[i]? = some job at here
    rw [last] at here
    split at here
    · rename_i newest
      obtain rfl := Option.some.inj here
      exact sound.length.symm.trans newest.symm
    · exact sound.numbers i job here
  · intro i
    change i ∈ w.slot.installed ↔ ∃ job, (w.jobs ++ [_])[i]? = some job ∧ _
    rw [last, sound.installed]
    split
    · rename_i newest
      subst newest
      simp
    · exact Iff.rfl
  · intro i
    change i ∈ w.slot.finished ↔ ∃ job, (w.jobs ++ [_])[i]? = some job ∧ _
    rw [last, sound.finished]
    split
    · rename_i newest
      subst newest
      simp
    · exact Iff.rfl

theorem getElem?_advance (w : Workshop) (i k : Nat) (progress : Progress) (slot : Slot) :
    (w.advance i progress slot).jobs[k]? =
      if i = k then w.jobs[k]?.map fun job => { job with progress } else w.jobs[k]? := by
  unfold advance
  rw [List.getElem?_modify]
  split
  · rfl
  · exact Option.map_id'

theorem Sound.advance (sound : w.Sound) {i : Nat} {job : Job} (here : w.jobs[i]? = some job)
    (progress : Progress) {slot : Slot} (sound' : slot.Sound)
    (nextRun : slot.nextRun = w.slot.nextRun)
    (installed : ∀ k, k ∈ slot.installed ↔
      if i = k then progress ≠ .numbered else k ∈ w.slot.installed)
    (finished : ∀ k, k ∈ slot.finished ↔
      if i = k then progress = .finished else k ∈ w.slot.finished) :
    (w.advance i progress slot).Sound where
  slot := sound'
  length := by
    change (w.jobs.modify i _).length = slot.nextRun
    rw [List.length_modify, nextRun, sound.length]
  numbers k other found := by
    rw [getElem?_advance] at found
    split at found
    · obtain ⟨before, there, rfl⟩ := Option.map_eq_some_iff.1 found
      exact sound.numbers k before there
    · exact sound.numbers k other found
  installed k := by
    change k ∈ slot.installed ↔ _
    rw [installed k, getElem?_advance]
    split
    · rename_i same
      subst same
      simp [here]
    · exact sound.installed k
  finished k := by
    change k ∈ slot.finished ↔ _
    rw [finished k, getElem?_advance]
    split
    · rename_i same
      subst same
      simp [here]
    · exact sound.finished k

theorem Sound.install (sound : w.Sound) (i : Nat) : (w.turn (.install i)).Sound := by
  unfold turn
  dsimp only
  split
  · rename_i number here
    obtain rfl : number = i := sound.numbers i _ here
    have fresh : number ∉ w.slot.installed := by
      rw [sound.installed, here]
      simp
    refine sound.advance here .installed (sound.slot.install fresh) rfl (fun k => ?_) fun k => ?_
    · simp only [Slot.install, List.mem_cons]
      split <;> simp_all [eq_comm]
    · have unfinished := (sound.slot.not_installed fresh).1
      simp only [Slot.install]
      split <;> simp_all
  · exact sound

theorem Sound.finish (sound : w.Sound) (i : Nat) : (w.turn (.finish i)).Sound := by
  unfold turn
  dsimp only
  split
  · rename_i number here
    obtain rfl : number = i := sound.numbers i _ here
    have installed : number ∈ w.slot.installed := by
      rw [sound.installed, here]
      simp
    refine sound.advance here .finished (sound.slot.finish installed) rfl (fun k => ?_) fun k => ?_
    · simp only [Slot.finish]
      split <;> simp_all
    · simp only [Slot.finish, List.mem_cons]
      split <;> simp_all [eq_comm]
  · exact sound

theorem Sound.turn (sound : w.Sound) (t : Turn) : (w.turn t).Sound := by
  cases t with
  | enter => exact sound.enter
  | install i => exact sound.install i
  | finish i => exact sound.finish i
  | say lines => exact sound.of_same_jobs sound.slot rfl rfl rfl
  | kill =>
    have killed := w.kill_slot
    refine sound.of_same_jobs ?_ ?_ ?_ ?_
    · rw [killed]
      exact sound.slot.kill
    · rw [killed, Slot.kill_nextRun]
    · rw [killed, Slot.kill_installed]
    · rw [killed, Slot.kill_finished]

-- By induction on the turns: each of them keeps the slot sound.
theorem Sound.run (sound : w.Sound) (turns : List Turn) : (w.run turns).Sound := by
  induction turns generalizing w with
  | nil => exact sound
  | cons t rest ih => exact ih (sound.turn t)

theorem Sound.installed_iff (sound : w.Sound) (run : Nat) :
    (⟨run, .installed⟩ : Job) ∈ w.jobs ↔ run ∈ w.slot.installed ∧ run ∉ w.slot.finished := by
  rw [sound.installed, sound.finished]
  constructor
  · intro member
    obtain ⟨i, here⟩ := List.mem_iff_getElem?.1 member
    obtain rfl : run = i := sound.numbers i _ here
    simp [here]
  · rintro ⟨⟨⟨number, progress⟩, here, started⟩, unfinished⟩
    obtain rfl : number = run := sound.numbers run _ here
    cases progress with
    | numbered => exact absurd rfl started
    | installed => exact List.mem_of_getElem? here
    | finished => exact absurd ⟨_, here, rfl⟩ unfinished

theorem Sound.isLive_iff (sound : w.Sound) (run : Nat) :
    w.IsLive run ↔ w.slot.current = some run := by
  rw [← sound.slot.live, IsLive, sound.installed_iff, Slot.IsLive, and_assoc]

/-- What a turn does to the runs that were installed or cancelled: it installs one more, or it is a
    kill, or it changes nothing there. -/
theorem turn_slot_cases (w : Workshop) (t : Turn) :
    (∃ (i number : Nat), w.jobs[i]? = some ⟨number, .numbered⟩ ∧
        (w.turn t).slot = w.slot.install number) ∨
      t = .kill ∧ (w.turn t).slot = w.slot.kill.2 ∨
      (w.turn t).slot.installed = w.slot.installed ∧
        (w.turn t).slot.cancelled = w.slot.cancelled := by
  cases t with
  | enter => exact .inr (.inr ⟨rfl, rfl⟩)
  | install i =>
    unfold turn
    dsimp only
    split
    · rename_i number here
      exact .inl ⟨i, number, here, rfl⟩
    · exact .inr (.inr ⟨rfl, rfl⟩)
  | finish i =>
    unfold turn
    dsimp only
    split
    · exact .inr (.inr ⟨rfl, rfl⟩)
    · exact .inr (.inr ⟨rfl, rfl⟩)
  | say lines => exact .inr (.inr ⟨rfl, rfl⟩)
  | kill => exact .inr (.inl ⟨rfl, w.kill_slot⟩)

theorem mem_cancelled_turn {run : Nat} (cancelled : run ∈ w.slot.cancelled) (t : Turn) :
    run ∈ (w.turn t).slot.cancelled := by
  rcases w.turn_slot_cases t with ⟨_, number, _, slot⟩ | ⟨_, slot⟩ | ⟨_, same⟩
  · rw [slot, Slot.mem_cancelled_install]
    exact .inr cancelled
  · rw [slot, Slot.mem_cancelled_kill]
    exact .inr cancelled
  · rwa [same]

theorem KilledIn.mem_cancelled {turns : List Turn} {run : Nat} (killed : w.KilledIn turns run) :
    run ∈ (w.run turns).slot.cancelled := by
  obtain ⟨before, after, rfl, -, hit⟩ := killed
  rw [run_append, run_cons]
  generalize (w.run before).turn .kill = now at hit ⊢
  induction after generalizing now with
  | nil => exact hit
  | cons t rest ih => exact ih _ (mem_cancelled_turn hit t)

theorem KilledIn.append {turns : List Turn} {run : Nat} (killed : w.KilledIn turns run)
    (t : Turn) : w.KilledIn (turns ++ [t]) run := by
  obtain ⟨before, after, rfl, hit⟩ := killed
  exact ⟨before, after ++ [t], by simp, hit⟩

theorem Sound.fresh (sound : w.Sound) {i number : Nat}
    (here : w.jobs[i]? = some ⟨number, .numbered⟩) : number ∉ w.slot.installed := by
  obtain rfl : number = i := sound.numbers i _ here
  rw [sound.installed, here]
  simp

theorem Sound.latest_killed (sound : w.Sound) (untouched : w.slot.cancelled = [])
    {turns : List Turn} {run : Nat} (latest : (w.run turns).slot.installed.head? = some run)
    (cancelled : run ∈ (w.run turns).slot.cancelled) : w.KilledIn turns run := by
  -- From the end, since the last turn tells which run was installed last.
  induction turns using List.reverseRecOn with
  | nil =>
    rw [run_nil, untouched] at cancelled
    cases cancelled
  | append_singleton turns t ih =>
    have before := sound.run turns
    rw [run_append, run_cons, run_nil] at latest cancelled
    rcases (w.run turns).turn_slot_cases t with ⟨i, number, here, slot⟩ | ⟨rfl, slot⟩ |
      ⟨installed, same⟩
    · have fresh := before.slot.not_installed (before.fresh here)
      rw [slot] at latest cancelled
      obtain rfl : number = run := Option.some.inj latest
      rw [Slot.mem_cancelled_install] at cancelled
      rcases cancelled with current | earlier
      · exact absurd current fresh.2.2
      · exact absurd earlier fresh.2.1
    · by_cases earlier : run ∈ (w.run turns).slot.cancelled
      · rw [slot, Slot.kill_installed] at latest
        exact (ih latest earlier).append .kill
      · exact ⟨turns, [], rfl, earlier, cancelled⟩
    · rw [installed] at latest
      rw [same] at cancelled
      exact (ih latest cancelled).append t

def opening (w : Workshop) (target : Path) (saved : Option Path) : List Turn :=
  [.enter, .install w.jobs.length, .say (openingLines saved target)]

theorem run_opening (w : Workshop) (target : Path) (saved : Option Path) :
    w.run (w.opening target saved) =
      ⟨(w.compiler.start target saved).2, w.jobs ++ [⟨w.slot.nextRun, .installed⟩]⟩ := by
  have entered (jobs : List Job) (job : Job) (f : Job → Job) :
      (jobs ++ [job]).modify jobs.length f = jobs ++ [f job] := by
    simp [List.modify_eq_set_getElem?]
  simp [opening, turn, advance, slot, Slot.number, Compiler.start, entered]

theorem start_number (w : Workshop) (target : Path) (saved : Option Path) :
    (w.compiler.start target saved).1 = w.slot.nextRun :=
  rfl

/-- A call that nothing comes between takes these turns and no other. -/
theorem compile_is_run (w : Workshop) (m : Machine) (target : Path) (saved : Option Path) :
    ∃ turns, (w.compiler.compile m target saved).2.1 = (w.run turns).compiler := by
  have opened := w.run_opening target saved
  unfold Compiler.compile
  rcases started : w.compiler.start target saved with ⟨number, c⟩
  have drawn : number = w.slot.nextRun := by rw [← w.start_number target saved, started]
  rw [started] at opened
  dsimp only
  rcases launched : c.launch m target with ⟨error | (⟨stdout, stderr, code⟩ | -), after⟩
  · refine ⟨w.opening target saved ++ [.finish w.jobs.length,
      .say ["Compilation failed: " ++ error.message]], ?_⟩
    rw [run_append, opened]
    simp [turn, advance, slot, Compiler.fail, drawn]
  · refine ⟨w.opening target saved ++ [.say (runLines stdout stderr (.ofCode code)),
      .finish w.jobs.length], ?_⟩
    rw [run_append, opened]
    simp [turn, advance, slot, Compiler.complete, drawn]
  · exact ⟨w.opening target saved, by rw [opened]⟩

/-- However many calls there are and however their steps and the kills fall: no two runs have the
    same number; at most one run is under way and not cancelled, and it is the one in the slot. The
    compiler is running exactly when the run that was installed last is neither over nor killed. A
    run that was superseded leaves the slot alone when it is over. A kill succeeds exactly when
    there is such a run, and it cancels this run and no other. -/
theorem live_run_is_in_slot (program : Path) (additional : List String) (turns : List Turn) :
    let fresh := start program additional
    let w := fresh.run turns
    (w.jobs.map Job.number).Nodup ∧
    (∀ run, w.IsLive run ↔ w.slot.current = some run) ∧
    (w.slot.isRunning = true ↔ ∃ run, w.slot.installed.head? = some run ∧
      ⟨run, .installed⟩ ∈ w.jobs ∧ ¬ fresh.KilledIn turns run) ∧
    (∀ (i : Nat) (run : Nat), w.jobs[i]? = some ⟨run, .installed⟩ →
      w.slot.installed.head? ≠ some run →
        (w.turn (.finish i)).slot.current = w.slot.current ∧
        ∀ other, (w.turn (.finish i)).IsLive other ↔ w.IsLive other) ∧
    (w.compiler.kill.1 = true ↔ ∃ run, w.IsLive run) ∧
    ∀ run, run ∈ w.compiler.kill.2.slot.cancelled ↔ run ∈ w.slot.cancelled ∨ w.IsLive run := by
  intro fresh w
  have sound : w.Sound := (start_sound program additional).run turns
  refine ⟨?_, sound.isLive_iff, ?_, ?_, ?_, ?_⟩
  · rw [List.nodup_iff_getElem?_ne_getElem?]
    intro i k earlier within same
    simp only [List.length_map] at within
    have first := List.getElem?_eq_getElem (Nat.lt_trans earlier within)
    have second := List.getElem?_eq_getElem within
    rw [List.getElem?_map, List.getElem?_map, first, second] at same
    have numbers : w.jobs[i].number = w.jobs[k].number := Option.some.inj same
    rw [sound.numbers i _ first, sound.numbers k _ second] at numbers
    exact earlier.ne numbers
  · rw [Slot.isRunning_iff]
    refine exists_congr fun run => ⟨fun here => ⟨sound.slot.latest run here, ?_, ?_⟩, ?_⟩
    · exact ((sound.isLive_iff run).2 here).1
    · exact fun killed => ((sound.isLive_iff run).2 here).2 killed.mem_cancelled
    · rintro ⟨latest, going, spared⟩
      refine (sound.isLive_iff run).1 ⟨going, fun cancelled => spared ?_⟩
      exact (start_sound program additional).latest_killed rfl latest cancelled
  · intro i run here superseded
    have elsewhere : w.slot.current ≠ some run := fun current =>
      superseded (sound.slot.latest run current)
    have same : (w.turn (.finish i)).slot.current = w.slot.current := by
      unfold turn
      dsimp only
      rw [here]
      exact if_neg elsewhere
    refine ⟨same, fun other => ?_⟩
    rw [(sound.turn (.finish i)).isLive_iff, same, sound.isLive_iff]
  · rw [kill_fst, Slot.isRunning_iff]
    exact exists_congr fun run => (sound.isLive_iff run).symm
  · intro run
    rw [kill_slot, Slot.mem_cancelled_kill, sound.isLive_iff, or_comm]

/-- Numbers are drawn before the slot is taken, so an older number may be the later run. -/
example :
    let w := (start ⟨"lilypond"⟩ []).run [.enter, .enter, .install 1, .install 0, .finish 1]
    w.slot.cancelled = [1] ∧ w.slot.current = some 0 ∧ w.compiler.kill.1 = true ∧
      w.compiler.kill.2.slot.cancelled = [0, 1] := by
  decide

end Workshop

end ScoreDesk.Compile
