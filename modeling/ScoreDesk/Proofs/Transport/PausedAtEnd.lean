import Mathlib
import ScoreDesk.Proofs.Transport.Playthrough
import ScoreDesk.Proofs.Transport.Standstill

namespace ScoreDesk.Transport

namespace Player

theorem Continues.split {origin p : Player} {status : Status}
    (continues : origin.Continues status p) :
    ∃ more, p.handed = origin.handed ++ more ∧ more ++ p.remaining = origin.remaining := by
  obtain ⟨more, handed⟩ := continues.handed
  have whole : origin.handed ++ (more ++ p.remaining) = origin.handed ++ origin.remaining := by
    rw [← List.append_assoc, handed]
    exact continues.programme
  exact ⟨more, handed.symm, List.append_cancel_left whole⟩

end Player

namespace Deck

open Device (next)
open Smf (TimedMessage)
open Studio (Shows moved)

variable {deck : StudioDeck} {i : Nat}

theorem serveAll_polls_paused {World Engine : Type} (d : Device World Engine)
    {deck : Deck World Engine} (paused : deck.state.status = .paused) (polls : Nat) :
    deck.serveAll d (List.replicate polls .poll) = deck := by
  have standing : deck.poll d = (.paused, deck) := poll_standing (by rw [paused]; rfl)
  induction polls with
  | zero => rfl
  | succ polls ih =>
    have first : deck.serve d .poll = deck := congrArg Prod.snd standing
    rw [List.replicate_succ, serveAll, List.foldl_cons, first]
    exact ih

theorem pause_finds (playing : deck.state.status = .playing) (held : deck.engine = some i)
    {p : Player} (found : (next deck.world).1.players[i]? = some p)
    (calm : deck.Calm) :
    let paused := deck.pause Studio.device.amid
    paused.1 = .ok () ∧ paused.2.engine = some i ∧ paused.2.state.status = .paused ∧
      Shows paused.2.world i (· = p.pause (next deck.world).1.now) := by
  obtain ⟨positionMs, outcome⟩ := pause_studio playing held
  have here : Shows (next deck.world) i (· = p) := ⟨⟨p, found, rfl⟩, Studio.interludes_next calm⟩
  have stopped : Shows (moved i deck.world .pause) i (· = p.pause (next deck.world).1.now) :=
    here.update fun q _ same => same ▸ rfl
  intro paused
  simp only [paused, outcome]
  refine ⟨trivial, held, trivial, stopped.moved (Player.steady_eq rfl) .look ?_⟩
  rintro q - rfl
  exact Player.tick_stopped _ rfl

theorem resume_after_pause (playing : deck.state.status = .playing) (held : deck.engine = some i)
    {p : Player} (found : (next deck.world).1.players[i]? = some p) (calm : deck.Calm) (polls : Nat)
    (tree : FileTree) (source : Path) :
    let paused := (deck.pause Studio.device.amid).2
    let resumed := (paused.serveAll Studio.device.amid (List.replicate polls .poll)).resume
      Studio.device.amid tree source
    resumed.1 = .ok () ∧ ∃ q, resumed.2.world.1.players[i]? = some q ∧ q.handed = p.handed ∧
      q.programme = p.programme ++ if p.ended then p.timeline.messages.drop p.cursor else [] := by
  obtain ⟨-, engine, status, stopped⟩ := pause_finds playing held found calm
  intro paused resumed
  have outcome : resumed = paused.resume Studio.device.amid tree source :=
    congrArg (resume Studio.device.amid tree source) (serveAll_polls_paused _ status polls)
  have plays : Shows (moved i paused.world .play) i
      (· = (p.pause (next deck.world).1.now).play (next paused.world).1.now) :=
    stopped.moved (Player.steady_eq rfl) .play fun q _ same => same ▸ rfl
  obtain ⟨q, here, rfl⟩ := plays.here
  rw [outcome, resume_studio source status engine]
  refine ⟨rfl, _, here, Player.handed_pause _ p, ?_⟩
  rw [Player.programme_play, Player.programme_pause]
  rfl

/-- A playback in which no pause finds the player at its end hands over each message from its start
    on once, across all pauses, and is not paused at its end. A pause that succeeds leaves the
    player's end as it finds it, and the resume after it plays once more what follows the cursor of
    a player that had ended. -/
theorem playback_goes_on_unless_paused_at_end (tree : FileTree) (system : Midi.System)
    (output : Option String) (now : Nat) (meantime : List (FileTree × List (Nat × Nat)))
    (requests : List Request) :
    let studio : Studio := { tree, system, output, now, players := [] }
    let steps := meantime.map fun (tree, rounds) (s : Studio) => s.meanwhile tree rounds
    let fresh : StudioDeck := .empty (studio, steps)
    let run := fresh.serveAll Studio.device.amid
    let deck := run requests
    (∀ (i : Nat) (last : FileTree × List (Nat × Nat)), deck.engine = some i →
      ∃ (before : List Request) (opening : Request) (later : List Request) (origin p : Player),
        requests = before ++ opening :: later ∧ fresh.OpenedBy before opening i origin ∧
        (deck.world.1.meanwhile last.1 last.2).players[i]? = some p ∧
        (origin.ended = false → origin.remaining = origin.timeline.messages.filter
          ((run (before ++ [opening])).state.positionMs ≤ ·.atMs)) ∧
        ((∀ part request, part ++ [request] <+: later →
            ¬ (run (before ++ opening :: part)).PausesEnded request) →
          (∃ more, p.handed = origin.handed ++ more ∧ more ++ p.remaining = origin.remaining) ∧
            (deck.state.status = .paused → p.ended = false))) ∧
    let paused := deck.pause Studio.device.amid
    (paused.1 = .ok () → ∃ i p h, deck.engine = some i ∧
      (next deck.world).1.players[i]? = some p ∧
      paused.2.engine = some i ∧ paused.2.state.status = .paused ∧
      paused.2.world.1.players[i]? = some h ∧
      h.ended = p.ended ∧ h.handed = p.handed ∧ h.programme = p.programme ∧
      ∀ (polls : Nat) (tree : FileTree) (source : Path),
        let resumed := (paused.2.serveAll Studio.device.amid (List.replicate polls .poll)).resume
          Studio.device.amid tree source
        resumed.1 = .ok () ∧ ∃ q, resumed.2.world.1.players[i]? = some q ∧ q.handed = p.handed ∧
          q.programme =
            p.programme ++ if p.ended then p.timeline.messages.drop p.cursor else []) := by
  intro studio steps fresh run deck
  have calm : fresh.Calm := calm_empty studio meantime
  constructor
  · intro i last held
    obtain ⟨before, opening, later, origin, split, opened, always, owes⟩ :=
      exists_openedBy calm rfl held
    obtain ⟨p, here, -⟩ := Studio.exists_of_meanwhile ((Player.owes_persists _).steady _)
      owes.here last.1 last.2
    refine ⟨before, opening, later, origin, p, split, opened, here, opened.opened.remaining,
      fun ongoing => ?_⟩
    have continues := opened.continues calm always ongoing
    simp only [← split] at continues
    obtain ⟨q, there, goesOn⟩ := Studio.exists_of_meanwhile ((Player.continues_persists _).steady _)
      continues.here last.1 last.2
    obtain rfl := Option.some.inj (here.symm.trans there)
    exact ⟨goesOn.split, goesOn.unended⟩
  · intro paused ok
    have calm_here : deck.Calm := serveAll_calm calm requests
    have plays : deck.state.status = .playing ∧ deck.engine.isSome := by
      by_contra other
      have refused := pause_refused Studio.device.amid other
      simp [paused, refused] at ok
    obtain ⟨i, held⟩ := Option.isSome_iff_exists.1 plays.2
    obtain ⟨_, _, _, _, -, -, -, owes⟩ := exists_openedBy calm rfl held
    obtain ⟨p, found, -⟩ := (owes.next ((Player.owes_persists _).steady _)).here
    obtain ⟨-, engine, status, stopped⟩ := pause_finds plays.1 held found calm_here
    obtain ⟨h, here, rfl⟩ := stopped.here
    exact ⟨i, p, _, held, found, engine, status, here, rfl, Player.handed_pause _ p,
      Player.programme_pause _ p, resume_after_pause plays.1 held found calm_here⟩

/-- A pause gets the player after its worker has declared the end; played again, the player hands
    its one note over a second time. -/
theorem paused_at_end_plays_again :
    let tree := noteTree
    let rounds : List (List (Nat × Nat)) := [[], [], [], [(0, 3000000000)], []]
    let steps := rounds.map fun rounds (s : Studio) => s.meanwhile tree rounds
    let played := (Deck.empty (.ofNote, steps)).operate Studio.device.amid tree (.play ⟨"score.ly"⟩)
    let paused := played.2.operate Studio.device.amid tree .pause
    let resumed := paused.2.operate Studio.device.amid tree (.resume ⟨"score.ly"⟩)
    let last := resumed.2.world.1.meanwhile tree [(0, 6000000000)]
    let note : TimedMessage := ⟨0, [0x90, 60, 80]⟩
    (played.1 = .ok () ∧ paused.1 = .ok () ∧ resumed.1 = .ok ()) ∧
      paused.2.state.status = .paused ∧
      (paused.2.world.1.players[0]?).map (fun p => (p.ended, p.handed)) = some (true, [note]) ∧
      (last.players[0]?).map (fun p => (p.timeline.messages, p.handed)) =
        some ([note], [note, note]) := by
  decide +kernel

end Deck

end ScoreDesk.Transport
