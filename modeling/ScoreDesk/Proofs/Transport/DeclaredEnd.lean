import Mathlib
import ScoreDesk.Proofs.Transport.Playthrough

namespace ScoreDesk.Transport

namespace Player

structure OwesSince (ms instant : Nat) (status : Status) (p : Player) : Prop where
  owes : p.Owes ms status
  started : status = .playing → p.StartedBy instant

theorem owesSince_persists (ms instant : Nat) : Deck.Persists (OwesSince ms instant) where
  steady _ now _ since := ⟨since.owes.work now, fun playing => (since.started playing).work now⟩
  looks status now p since :=
    ⟨(owes_persists ms).looks status now p since.owes, fun playing =>
      (since.started playing).tick now⟩

end Player

namespace Deck

open Device (next)
open Studio (Shows moved)

variable {deck : StudioDeck} {i : Nat}

theorem poll_ended {World Engine : Type} {d : Device World Engine} {deck : Deck World Engine}
    (ends : (deck.poll d).1 = .ended) :
    deck.state.status = .playing ∧ ∃ e, deck.engine = some e ∧
      ((d.ended e (d.position e deck.world).2).1 = true ∨ (d.position e deck.world).1 = 0) := by
  unfold poll at ends
  split at ends
  · rename_i e playing held
    refine ⟨playing, e, held, ?_⟩
    dsimp only at ends
    split at ends
    · rename_i found
      simpa using found
    · cases ends
  · cases ends
  · cases ends

-- By induction on the requests from the end: the latest one that started what the deck holds.
theorem exists_latest_restart (unheld : deck.engine ≠ some i) {requests : List Request}
    (held : (deck.serveAll Studio.device.amid requests).engine = some i) :
    ∃ before latest rest, requests = before ++ latest :: rest ∧
      (deck.serveAll Studio.device.amid before).Restarts latest ∧
      (∀ part, part <+: rest →
        (deck.serveAll Studio.device.amid (before ++ latest :: part)).engine = some i) ∧
      ∀ part request, part ++ [request] <+: rest →
        ¬ (deck.serveAll Studio.device.amid (before ++ latest :: part)).Restarts request := by
  induction requests using List.reverseRecOn with
  | nil => exact absurd held unheld
  | append_singleton requests request ih =>
    by_cases restarts : (deck.serveAll Studio.device.amid requests).Restarts request
    · refine ⟨requests, request, [], rfl, restarts, fun part here => ?_, fun part later here => ?_⟩
      · obtain rfl := List.prefix_nil.1 here
        exact held
      · exact absurd (List.prefix_nil.1 here) (by simp)
    · have comes := (deck.serveAll Studio.device.amid requests).serve_comes request
      rw [serveAll_append] at held
      obtain ⟨before, latest, rest, rfl, started, always, unstarted⟩ :=
        ih (comes.held_before held restarts)
      refine ⟨before, latest, rest ++ [request], by simp, started, fun part here => ?_,
        fun part later here => ?_⟩
      · rcases List.prefix_concat_iff.1 here with rfl | shorter
        · rw [← List.cons_append, ← List.append_assoc, serveAll_append]
          exact held
        · exact always part shorter
      · rcases List.prefix_concat_iff.1 here with same | shorter
        · obtain ⟨rfl, rfl⟩ := List.append_singleton_inj.1 same
          exact restarts
        · exact unstarted part later shorter

theorem Comes.restarted {latest : Request} {after : StudioDeck} (comes : deck.Comes latest after)
    (calm : deck.Calm) (restarts : deck.Restarts latest) (held : after.engine = some i)
    (owed : deck.engine = some i →
      ∃ ms, Shows deck.world i (Player.Owes ms deck.state.status)) :
    after.state.status = .playing ∧ Shows after.world i (Player.StartedBy after.world.1.now) ∧
      (deck.world.1.players[i]? = none ∨
        ∃ early, after.world.1.players[i]? = some early ∧ early.ended = false) := by
  by_cases before : deck.engine = some i
  · obtain ⟨ms, shows⟩ := owed before
    cases comes with
    | same unstarted => exact absurd restarts unstarted
    | gone unstarted => exact absurd restarts unstarted
    | looks => exact absurd restarts not_restarts_poll
    | pauses => exact absurd restarts (not_restarts_of_halts rfl)
    | resumes _ paused here =>
      obtain rfl := Option.some.inj (before.symm.trans here)
      rw [paused] at shows
      have plays : Shows (moved i deck.world .play) i
          fun p => p.StartedBy (next deck.world).1.now ∧ p.ended = false :=
        shows.moved ((Player.owes_persists ms).steady .paused) .play fun p _ owes =>
          ⟨Player.startedBy_play _ owes.follows, rfl⟩
      obtain ⟨p, present, -, unended⟩ := plays.here
      exact ⟨rfl, plays.imp fun _ _ both => both.1, .inr ⟨p, present, unended⟩⟩
    | begins _ loads here =>
      obtain rfl := Option.some.inj (here.symm.trans held)
      have fresh := load_fresh calm loads here
      obtain ⟨p, present, -⟩ := shows.here
      rw [fresh] at present
      cases present
  · obtain ⟨fresh, playing, shows⟩ := comes.opens calm before held
    exact ⟨playing, shows.imp fun _ _ opened => opened.started, .inl fresh⟩

/-- A look that takes a player for ended that was started a millisecond before has seen that it was
    declared to have ended. -/
theorem poll_sees_end {ms instant : Nat} (playing : deck.state.status = .playing)
    (held : deck.engine = some i)
    (shows : Shows deck.world i (Player.OwesSince ms instant deck.state.status))
    (late : instant + 1000000 ≤ (next deck.world).1.now)
    (ends : (deck.poll Studio.device.amid).1 = .ended) :
    ∃ p, (next (moved i deck.world .look)).1.players[i]? = some p ∧ p.ended = true ∧
      p.Owes ms .playing := by
  have persists := Player.owesSince_persists ms instant
  rw [playing] at shows
  have looked := shows.moved (persists.steady _) .look fun p _ => persists.looks _ _ p
  obtain ⟨p, found, since⟩ := (looked.next (persists.steady _)).here
  refine ⟨p, found, ?_, since.owes⟩
  obtain ⟨-, j, engine, told⟩ := poll_ended ends
  obtain rfl := Option.some.inj (held.symm.trans engine)
  rw [Studio.amid_position, Studio.ended_of_player found] at told
  rcases told with declared | zero
  · exact declared
  · obtain ⟨q, here, underway, started⟩ := (shows.next (persists.steady _)).here
    rw [Studio.position_of_player here] at zero
    cases ended : q.ended with
    | true =>
      -- It does not run, so that it is still at its end when the look asks for that.
      have stopped : q.playhead.isRunning = false := by
        have runs : q.playhead.isRunning = !q.ended := underway.follows
        rw [runs, ended]
        rfl
      have ticked : Shows (moved i deck.world .look) i (· = q) :=
        Shows.update ⟨⟨q, here, rfl⟩, Studio.interludes_next shows.interludes⟩ fun r _ same =>
          same ▸ Player.tick_stopped _ stopped
      obtain ⟨r, there, rfl⟩ := (ticked.next (Player.steady_eq stopped)).here
      obtain rfl := Option.some.inj (found.symm.trans there)
      exact ended
    | false =>
      have runs : q.playhead.isRunning = !q.ended := underway.follows
      rw [ended] at runs
      obtain ⟨since', startedAt⟩ := Option.isSome_iff_exists.1 runs
      have bound := started rfl since' startedAt
      exact absurd zero (Playhead.currentMs_tick_ne_zero startedAt (by omega))

/-- A look that takes a playback for ended looks at what the latest successful start, or resume, has
    started. Where that was a millisecond before at least, the worker has declared the end since
    then, and every message from the start of the playback on was handed over. -/
theorem ended_only_where_declared (tree : FileTree) (system : Midi.System)
    (output : Option String) (now : Nat) (meantime : List (FileTree × List (Nat × Nat)))
    (requests : List Request) :
    let studio : Studio := { tree, system, output, now, players := [] }
    let steps := meantime.map fun (tree, rounds) (s : Studio) => s.meanwhile tree rounds
    let fresh : StudioDeck := .empty (studio, steps)
    let run := fresh.serveAll Studio.device.amid
    let deck := run requests
    (deck.poll Studio.device.amid).1 = .ended →
      ∃ (before : List Request) (latest : Request) (rest : List Request),
        requests = before ++ latest :: rest ∧ (run before).Restarts latest ∧
        (∀ part request, part ++ [request] <+: rest →
          ¬ (run (before ++ latest :: part)).Restarts request) ∧
        let started := run (before ++ [latest])
        (started.world.1.now + 1000000 ≤ (next deck.world).1.now →
          ∃ i p, deck.engine = some i ∧
            (next (moved i deck.world .look)).1.players[i]? = some p ∧ p.ended = true ∧
            ((run before).world.1.players[i]? = none ∨
              ∃ early, started.world.1.players[i]? = some early ∧ early.ended = false) ∧
            ∃ (earlier : List Request) (opening : Request) (later : List Request)
                (origin : Player),
              before ++ [latest] = earlier ++ opening :: later ∧
              fresh.OpenedBy earlier opening i origin ∧
              p.timeline.messages.filter
                ((run (earlier ++ [opening])).state.positionMs ≤ ·.atMs) <:+ p.handed) := by
  intro studio steps fresh run deck ends
  have calm : fresh.Calm := calm_empty studio meantime
  obtain ⟨playing, i, held, -⟩ := poll_ended ends
  have unheld : fresh.engine ≠ some i := by simp [fresh, empty]
  obtain ⟨before, latest, rest, split, restarts, always, unstarted⟩ :=
    exists_latest_restart unheld held
  refine ⟨before, latest, rest, split, restarts, unstarted, fun late => ?_⟩
  have engine := always [] List.nil_prefix
  obtain ⟨earlier, opening, later, origin, splits, opened, -, owes⟩ :=
    exists_openedBy calm rfl engine
  have comes := (run before).serve_comes latest
  have served : (run before).serve Studio.device.amid latest = run (before ++ [latest]) :=
    (serveAll_append _ _ before [latest]).symm
  rw [served] at comes
  obtain ⟨status, startedBy, declared⟩ :=
    comes.restarted (serveAll_calm calm before) restarts engine fun earlier => by
      obtain ⟨_, _, _, _, -, -, -, owes⟩ := exists_openedBy calm rfl earlier
      exact ⟨_, owes⟩
  -- No request after the start goes on with a player, so that at most a pause changes it.
  have onwards := fresh.serveAll_opening before latest
  have same : deck = (run (before ++ [latest])).serveAll Studio.device.amid rest := by
    rw [← onwards rest, ← split]
  have persists := Player.owesSince_persists (run (earlier ++ [opening])).state.positionMs
    (run (before ++ [latest])).world.1.now
  have since : Shows deck.world i (Player.OwesSince (run (earlier ++ [opening])).state.positionMs
      (run (before ++ [latest])).world.1.now deck.state.status) := by
    rw [same]
    refine serveAll_shows persists (fun part here => ?_) (fun part request here => ?_)
      ((owes.and startedBy).imp fun p _ both => ⟨both.1, fun _ => both.2⟩)
    · exact onwards part ▸ always part here
    · refine ⟨fun _ _ _ p _ owed => ⟨owed.owes.pause _, fun now => by cases now⟩, fun again => ?_⟩
      exact absurd (onwards part ▸ again) (unstarted part request here)
  obtain ⟨p, found, ended, owing⟩ := poll_sees_end playing held since late ends
  refine ⟨i, p, held, found, ended, declared, earlier, opening, later, origin, splits, opened, ?_⟩
  have due := owing.due
  rwa [Player.programme_of_ended ended, owing.ordered.drop_indexAt] at due

/-- A look two seconds after the start, at a file of two seconds whose worker has just declared its
    end. -/
theorem end_of_note_is_seen :
    let tree := noteTree
    let meantime : List (FileTree × List (Nat × Nat)) :=
      [(tree, []), (tree, []), (tree, []), (tree, [(0, 2000000000)])]
    let steps := meantime.map fun (tree, rounds) (s : Studio) => s.meanwhile tree rounds
    let run := Deck.serveAll Studio.device.amid (.empty (.ofNote, steps))
    let play : Request := .operate tree (.play ⟨"score.ly"⟩)
    let deck := run [play]
    (deck.poll Studio.device.amid).1 = .ended ∧
      deck.world.1.now + 1000000 ≤ (next deck.world).1.now ∧
      ∃ p, (next (moved 0 deck.world .look)).1.players[0]? = some p ∧ p.ended = true := by
  intro tree meantime steps run play deck
  have ends : (deck.poll Studio.device.amid).1 = .ended := by decide +kernel
  have late : deck.world.1.now + 1000000 ≤ (next deck.world).1.now := by decide +kernel
  have held : deck.engine = some 0 := by decide +kernel
  obtain ⟨before, latest, rest, split, -, -, declared⟩ :=
    ended_only_where_declared tree (.present [] ["synth"]) none 0 meantime [play] ends
  have only : before = [] ∧ latest = play ∧ rest = [] := by
    cases before with
    | nil =>
      obtain ⟨rfl, rfl⟩ := List.cons.inj split
      exact ⟨rfl, rfl, rfl⟩
    | cons first more => simp at split
  obtain ⟨rfl, rfl, rfl⟩ := only
  obtain ⟨i, p, engine, found, ended, -⟩ := declared late
  obtain rfl := Option.some.inj (held.symm.trans engine)
  exact ⟨ends, late, p, found, ended⟩

end Deck

end ScoreDesk.Transport
