import Mathlib
import ScoreDesk.Proofs.Transport.DeckInvariants
import ScoreDesk.Proofs.Transport.Silence
import ScoreDesk.Transport.Studio

namespace ScoreDesk.Transport

open Smf (Timeline)

namespace Device

variable {World Engine : Type}

def Steady (I : World → Option Engine → Bool → Prop) (steps : List (World → World)) : Prop :=
  ∀ step ∈ steps, ∀ {w engine plays}, I w engine plays → I (step w) engine plays

/-- An invariant of a world that moves by itself, where each step to come keeps it. -/
def Amid (I : World → Option Engine → Bool → Prop) (world : World × List (World → World))
    (engine : Option Engine) (plays : Bool) : Prop :=
  I world.1 engine plays ∧ Steady I world.2

variable {d : Device World Engine} {I : World → Option Engine → Bool → Prop}

theorem afterStep_amid {α : Type} {call : World → α × World} {world : World × List (World → World)}
    {before : Option Engine} {played : Bool} (engine : α → Option Engine) (plays : α → Bool)
    (gives : ∀ {w}, I w before played → I (call w).2 (engine (call w).1) (plays (call w).1))
    (amid : Amid I world before played) :
    let after := afterStep call world
    Amid I after.2 (engine after.1) (plays after.1) := by
  obtain ⟨w, steps⟩ := world
  obtain ⟨here, steady⟩ := amid
  cases steps with
  | nil => exact ⟨gives here, steady⟩
  | cons step rest =>
    exact ⟨gives (steady step List.mem_cons_self here),
      fun later member => steady later (List.mem_cons_of_mem step member)⟩

theorem Keeps.amid (keeps : d.Keeps I) : d.amid.Keeps (Amid I) where
  allows amid := ⟨keeps.allows amid.1, amid.2⟩
  unloaded amid := ⟨keeps.unloaded amid.1, amid.2⟩
  load path _ := afterStep_amid Except.toOption (fun _ => false) (keeps.load path)
  play e _ := afterStep_amid (fun _ => some e) Except.isOk (keeps.play e)
  pause e _ := afterStep_amid (fun _ => some e) (fun _ => false) (keeps.pause e)
  stop e _ := afterStep_amid (fun _ => none) (fun _ => false) (keeps.stop e)
  seek e ms _ := afterStep_amid (fun _ => some e) (fun _ => true) (keeps.seek e ms)
  position e _ plays := afterStep_amid (fun _ => some e) (fun _ => plays) (keeps.position e)
  duration e _ plays := afterStep_amid (fun _ => some e) (fun _ => plays) (keeps.duration e)
  ended e _ := afterStep_amid (fun _ => some e) (fun _ => true) (keeps.ended e)

end Device

namespace Studio

def workAll (s : Studio) (rounds : List (Nat × Nat)) : Studio :=
  rounds.foldl (fun s (i, now) => s.work i now) s

/-- Only the player that is held may run, and one that does not run has sent nothing since the last
    sweep. -/
def Attended (s : Studio) (held : Option Nat) : Prop :=
  ∀ (i : Nat) (p : Player), s.players[i]? = some p →
    p.Quiet ∧ (p.playhead.isRunning = true → held = some i)

variable {s : Studio} {held after : Option Nat}

theorem Attended.any (attended : s.Attended none) (held : Option Nat) : s.Attended held := by
  intro i p here
  obtain ⟨quiet, only⟩ := attended i p here
  exact ⟨quiet, fun running => by cases only running⟩

theorem Attended.update (attended : s.Attended held) {i : Nat} {f : Player → Player}
    (quiet : ∀ p : Player, p.Quiet → (f p).Quiet)
    (mine : ∀ p : Player, s.players[i]? = some p → (f p).playhead.isRunning = true →
      after = some i)
    (others : ∀ j, j ≠ i → held = some j → after = some j) : (s.update i f).Attended after := by
  intro j q here
  have changed : (s.players.modify i f)[j]? = some q := here
  rw [List.getElem?_modify] at changed
  obtain ⟨p, before, rfl⟩ := Option.map_eq_some_iff.1 changed
  obtain ⟨silent, only⟩ := attended j p before
  by_cases same : i = j
  · subst same
    rw [if_pos rfl]
    exact ⟨quiet p silent, mine p before⟩
  · rw [if_neg same]
    exact ⟨silent, fun running => others j (Ne.symm same) (only running)⟩

theorem Attended.unstarted (attended : s.Attended held) {i : Nat} {f : Player → Player}
    (quiet : ∀ p : Player, p.Quiet → (f p).Quiet)
    (unstarted : ∀ p : Player, (f p).playhead.isRunning = true → p.playhead.isRunning = true) :
    (s.update i f).Attended held :=
  attended.update quiet (fun p here running => (attended i p here).2 (unstarted p running))
    fun _ _ => id

theorem Attended.ceased {i : Nat} (attended : s.Attended (some i)) {f : Player → Player}
    (quiet : ∀ p : Player, p.Quiet → (f p).Quiet)
    (stopped : ∀ p : Player, (f p).playhead.isRunning = false) :
    (s.update i f).Attended none := by
  refine attended.update quiet (fun p _ running => ?_) fun j other here => ?_
  · rw [stopped p] at running
    cases running
  · exact absurd (Option.some.inj here).symm other

theorem Attended.add (attended : s.Attended none) (timeline : Timeline) :
    ({ s with players := s.players ++ [.ofTimeline timeline] } : Studio).Attended none := by
  intro i p here
  rw [List.getElem?_append] at here
  split at here
  · exact attended i p here
  · obtain rfl := List.mem_singleton.1 (List.mem_of_getElem? here)
    exact ⟨Player.ofTimeline_quiet timeline, fun running => by cases running⟩

theorem Attended.work (attended : s.Attended held) (i now : Nat) :
    (s.work i now).Attended held := by
  have later : ({ s with now := max s.now now } : Studio).Attended held := attended
  exact later.unstarted (fun p quiet => quiet.work _) fun p => Player.isRunning_of_work

theorem Attended.workAll (attended : s.Attended held) (rounds : List (Nat × Nat)) :
    (s.workAll rounds).Attended held := by
  induction rounds generalizing s with
  | nil => exact attended
  | cons round rest ih => exact ih (attended.work round.1 round.2)

theorem exists_ok_of_bind {ε α β : Type} {x : Except ε α} {f : α → Except ε β} {b : β}
    (gives : x >>= f = .ok b) : ∃ a, x = .ok a ∧ f a = .ok b := by
  cases x with
  | error e => cases gives
  | ok a => exact ⟨a, rfl, gives⟩

theorem ok_of_mapError {ε ε' α : Type} {x : Except ε α} {f : ε → ε'} {a : α}
    (gives : x.mapError f = .ok a) : x = .ok a := by
  cases x with
  | error e => cases gives
  | ok b => exact congrArg Except.ok (Except.ok.inj gives)

theorem ofTimeline_of_load {path : Path} {player : Player} (loaded : s.load path = .ok player) :
    ∃ timeline : Timeline, timeline.Ordered ∧ player = .ofTimeline timeline := by
  obtain ⟨content, -, read⟩ := exists_ok_of_bind loaded
  obtain ⟨timeline, parsed, opened⟩ := exists_ok_of_bind read
  obtain ⟨port, -, made⟩ := exists_ok_of_bind opened
  obtain ⟨file, -, told⟩ := exists_ok_of_bind (ok_of_mapError parsed)
  obtain rfl := Except.ok.inj told
  exact ⟨_, Timeline.ofFile_ordered file, (Except.ok.inj made).symm⟩

/-- A player runs only while the deck holds it and lets it play. -/
def Heeded (s : Studio) (engine : Option Nat) (plays : Bool) : Prop :=
  s.Attended (bif plays then engine else none)

theorem device_keeps : device.Keeps Heeded where
  allows attended := attended.any _
  unloaded attended := attended
  load path s attended := by
    dsimp only [device]
    split
    · exact attended
    · rename_i player loaded
      obtain ⟨timeline, -, rfl⟩ := ofTimeline_of_load loaded
      exact attended.add timeline
  play i s attended := by
    refine attended.update (fun _ _ => Player.play_quiet _) (fun _ _ _ => rfl) fun j _ none => ?_
    cases none
  pause i s attended := Attended.ceased attended (fun _ _ => Player.silence_quiet) fun _ => rfl
  stop i s attended := Attended.ceased attended (fun _ _ => Player.silence_quiet) fun _ => rfl
  seek i ms s attended :=
    Attended.unstarted attended (fun _ _ => Player.silence_quiet) fun p running => by
      simpa [Player.seek, Player.silence] using running
  position i s plays attended :=
    Attended.unstarted attended (fun _ quiet => quiet.tick _) fun p running => by
      simpa [Player.tick] using running
  duration _ _ _ attended := attended
  ended _ _ attended := attended

def meanwhile (s : Studio) (tree : FileTree) (rounds : List (Nat × Nat)) : Studio :=
  ({ s with tree } : Studio).workAll rounds

theorem Attended.meanwhile (attended : s.Attended held) (tree : FileTree)
    (rounds : List (Nat × Nat)) : (s.meanwhile tree rounds).Attended held :=
  Attended.workAll (s := { s with tree }) attended rounds

end Studio

/-- However players are moved, and whatever a deck is asked for while their workers take rounds, a
    player that does not run has been silenced since its last message, and no player runs while the
    deck is idle or paused. -/
theorem silenced_unless_running :
    (∀ (timeline : Timeline) (now : Nat) (moves : List (Nat × Move)),
      let player := ((Playback.start timeline now).run moves).player
      player.playhead.isRunning = false → Silenced player.emitted) ∧
    ∀ (tree : FileTree) (system : Midi.System) (output : Option String) (now : Nat)
      (meantime : List (FileTree × List (Nat × Nat))) (requests : List Request)
      (last : FileTree × List (Nat × Nat)),
      let studio : Studio := { tree, system, output, now, players := [] }
      let steps := meantime.map fun (tree, rounds) (s : Studio) => s.meanwhile tree rounds
      let deck := Deck.serveAll Studio.device.amid (.empty (studio, steps)) requests
      let players := (deck.world.1.meanwhile last.1 last.2).players
      (∀ p ∈ players, p.playhead.isRunning = false → Silenced p.emitted) ∧
        (deck.state.status = .idle ∨ deck.state.status = .paused →
          ∀ p ∈ players, p.playhead.isRunning = false) := by
  constructor
  · intro timeline now moves player stopped
    exact (Playback.run_quiet (Player.ofTimeline_quiet timeline) moves stopped).silenced
  · intro tree system output now meantime requests last studio steps deck players
    have empty : Studio.Heeded studio none false := fun i p here => by simp [studio] at here
    have steady : Device.Steady Studio.Heeded steps := by
      intro step member s engine plays attended
      obtain ⟨between, -, rfl⟩ := List.mem_map.1 member
      exact attended.meanwhile between.1 between.2
    have fresh : (Deck.empty (studio, steps)).Kept (Device.Amid Studio.Heeded) := ⟨empty, steady⟩
    -- What holds of the studio when the last request is done holds after its last rounds too.
    have kept : deck.Kept (Device.Amid Studio.Heeded) :=
      Deck.serveAll_kept Studio.device_keeps.amid fresh requests
    have attended := kept.1.meanwhile last.1 last.2
    constructor
    · intro p member stopped
      obtain ⟨i, here⟩ := List.mem_iff_getElem?.1 member
      exact ((attended i p here).1 stopped).silenced
    · intro ceased p member
      obtain ⟨i, here⟩ := List.mem_iff_getElem?.1 member
      have silent : deck.state.plays = false := by
        rcases ceased with idle | paused
        · simp [State.plays, idle]
        · simp [State.plays, paused]
      rw [silent] at attended
      cases running : p.playhead.isRunning with
      | false => rfl
      | true =>
        have held := (attended i p here).2 running
        cases held

end ScoreDesk.Transport
