import Mathlib
import ScoreDesk.Proofs.Transport.HeldPlayer

namespace ScoreDesk.Transport

open Smf (Timeline TimedMessage)

namespace Player

/-- A player stands as the status of its deck says: it runs to its end, or does not run. -/
def Follows : Status → Player → Prop
  | .playing, p => p.Underway
  | .paused, p | .idle, p => p.playhead.isRunning = false

structure Rolling (timeline : Timeline) (p : Player) : Prop where
  same : p.timeline = timeline
  underway : p.Underway
  programme : p.programme = timeline.messages

structure Opened (ms instant : Nat) (p : Player) : Prop where
  ordered : p.timeline.Ordered
  underway : p.Underway
  started : p.StartedBy instant
  cursor : p.cursor = p.timeline.indexAt ms
  due : p.timeline.messages.drop (p.timeline.indexAt ms) <:+ p.programme

structure Owes (ms : Nat) (status : Status) (p : Player) : Prop where
  ordered : p.timeline.Ordered
  follows : p.Follows status
  due : p.timeline.messages.drop (p.timeline.indexAt ms) <:+ p.programme
  rewound : p.ended = true → p.cursor ≤ p.timeline.indexAt ms

/-- A player that goes on with the programme that it had, and was not paused at its end. -/
structure Continues (origin : Player) (status : Status) (p : Player) : Prop where
  timeline : p.timeline = origin.timeline
  follows : p.Follows status
  programme : p.programme = origin.programme
  handed : origin.handed <+: p.handed
  unended : status = .paused → p.ended = false

section Steadiness

variable {p : Player} {status : Status}

theorem Follows.work (follows : p.Follows status) (now : Nat) :
    (p.work now).Follows status ∧ (p.work now).programme = p.programme := by
  cases status with
  | playing => exact ⟨Underway.work follows now, Underway.programme_work follows now⟩
  | idle | paused =>
    rw [work_stopped now p follows]
    exact ⟨follows, rfl⟩

theorem Follows.tick (follows : p.Follows status) (now : Nat) : (p.tick now).Follows status := by
  cases status with
  | playing => exact Underway.tick now follows
  | idle | paused => exact (Playhead.tick_isRunning now p.playhead).trans follows

theorem rolling_steady (timeline : Timeline) : Steady (Rolling timeline) := by
  intro now p rolling
  refine ⟨?_, rolling.underway.work now, ?_⟩
  · rw [work_timeline, rolling.same]
  · rw [rolling.underway.programme_work, rolling.programme]

theorem Owes.work {ms : Nat} (owes : p.Owes ms status) (now : Nat) :
    (p.work now).Owes ms status := by
  obtain ⟨follows, programme⟩ := owes.follows.work now
  refine ⟨?_, follows, ?_, ?_⟩
  · rw [work_timeline]
    exact owes.ordered
  · rw [work_timeline, programme]
    exact owes.due
  · rw [work_timeline]
    cases status with
    | playing => exact Underway.cursor_work owes.follows owes.rewound now
    | idle | paused =>
      rw [work_stopped now p owes.follows]
      exact owes.rewound

theorem Continues.work {origin : Player} (continues : origin.Continues status p) (now : Nat) :
    origin.Continues status (p.work now) := by
  obtain ⟨follows, programme⟩ := continues.follows.work now
  refine ⟨?_, follows, programme.trans continues.programme, ?_, ?_⟩
  · rw [work_timeline, continues.timeline]
  · rw [handed_work]
    exact continues.handed.trans (List.prefix_append _ _)
  · rintro rfl
    rw [work_stopped now p continues.follows]
    exact continues.unended rfl

theorem Owes.play {ms : Nat} (owes : p.Owes ms .paused) (now : Nat) :
    (p.play now).Owes ms .playing := by
  refine ⟨owes.ordered, underway_play now p, ?_, fun ended => by cases ended⟩
  change p.timeline.messages.drop (p.timeline.indexAt ms) <:+ (p.play now).programme
  rw [programme_play]
  cases ended : p.ended with
  | false =>
    rw [if_neg (by simp), List.append_nil]
    exact owes.due
  | true =>
    have later := Nat.add_sub_cancel' (owes.rewound ended)
    rw [if_pos rfl, ← later, ← List.drop_drop]
    exact (List.drop_suffix _ _).trans (List.suffix_append _ _)

theorem Owes.pause {ms : Nat} (owes : p.Owes ms .playing) (now : Nat) :
    (p.pause now).Owes ms .paused := by
  refine ⟨owes.ordered, rfl, ?_, owes.rewound⟩
  rw [programme_pause]
  exact owes.due

theorem Continues.pause {origin : Player} (continues : origin.Continues .playing p)
    (unended : p.ended = false) (now : Nat) : origin.Continues .paused (p.pause now) := by
  refine ⟨continues.timeline, rfl, ?_, ?_, fun _ => unended⟩
  · rw [programme_pause, continues.programme]
  · rw [handed_pause]
    exact continues.handed

theorem Continues.play {origin : Player} (continues : origin.Continues .paused p) (now : Nat) :
    origin.Continues .playing (p.play now) := by
  refine ⟨continues.timeline, underway_play now p, ?_, continues.handed, fun paused => by
    cases paused⟩
  rw [programme_play, continues.unended rfl, continues.programme]
  simp

theorem owes_persists (ms : Nat) : Deck.Persists (Owes ms) where
  steady _ now _ owes := owes.work now
  looks _ now _ owes := ⟨owes.ordered, owes.follows.tick now, owes.due, owes.rewound⟩

theorem continues_persists (origin : Player) : Deck.Persists origin.Continues where
  steady _ now _ continues := continues.work now
  looks _ now _ continues := ⟨continues.timeline, continues.follows.tick now, continues.programme,
    continues.handed, continues.unended⟩

theorem Opened.owes {ms instant : Nat} (opened : p.Opened ms instant) : p.Owes ms .playing :=
  ⟨opened.ordered, opened.underway, opened.due, fun _ => Nat.le_of_eq opened.cursor⟩

theorem Opened.continues {ms instant : Nat} (opened : p.Opened ms instant) :
    p.Continues .playing p :=
  ⟨rfl, opened.underway, rfl, List.prefix_rfl, fun paused => by cases paused⟩

theorem Opened.remaining {ms instant : Nat} (opened : p.Opened ms instant)
    (unended : p.ended = false) :
    p.remaining = p.timeline.messages.filter (ms ≤ ·.atMs) := by
  unfold Player.remaining
  rw [unended, opened.cursor, opened.ordered.drop_indexAt]
  rfl

end Steadiness

section Opening

variable {timeline : Timeline} {ms now : Nat}

theorem rolling_play (timeline : Timeline) (now : Nat) :
    ((ofTimeline timeline).play now).Rolling timeline := by
  refine ⟨rfl, underway_play now _, ?_⟩
  rw [programme_play]
  exact List.append_nil _

theorem opened_play (ordered : timeline.Ordered) (now : Nat) :
    ((ofTimeline timeline).play now).Opened 0 now := by
  have beginning : timeline.indexAt 0 = 0 := by simp [Timeline.indexAt]
  refine ⟨ordered, underway_play now _, startedBy_play now rfl, beginning.symm, ?_⟩
  rw [(rolling_play timeline now).programme]
  exact List.drop_suffix _ _

theorem Rolling.opened_seek {p : Player} (rolling : p.Rolling timeline)
    (ordered : timeline.Ordered) (within : ms ≤ timeline.durationMs) (now : Nat) :
    (p.seek now ms).Opened ms now := by
  obtain ⟨same, underway, programme⟩ := rolling
  subst same
  have place : min ms p.timeline.durationMs = ms := Nat.min_eq_left within
  refine ⟨ordered, underway.seek now ms, startedBy_seek now ms p, ?_, ?_⟩
  · exact congrArg p.timeline.indexAt place
  · change p.timeline.messages.drop (p.timeline.indexAt ms) <:+ _
    unfold Player.programme
    rw [handed_seek, remaining_seek, place]
    cases ended : p.ended with
    | false => exact List.suffix_append _ _
    | true =>
      -- It has come to its end before, so all messages were handed over.
      rw [programme_of_ended ended] at programme
      rw [programme, if_pos rfl, List.append_nil]
      exact List.drop_suffix _ _

end Opening

end Player

namespace Studio

theorem launched_opened {course : Course} {i ms : Nat} {timeline : Timeline}
    (ordered : timeline.Ordered) (within : ms ≤ timeline.durationMs)
    (shows : Shows course i (· = .ofTimeline timeline)) :
    Shows (launched i course ms) i (Player.Opened ms (launched i course ms).1.now) := by
  have idle := Player.steady_eq (p := .ofTimeline timeline) rfl
  unfold launched
  split
  · rename_i beginning
    subst beginning
    exact shows.moved idle .play fun p _ same => same ▸ Player.opened_play ordered _
  · have rolling : Shows (moved i course .play) i (Player.Rolling timeline) :=
      shows.moved idle .play fun p _ same => same ▸ Player.rolling_play timeline _
    exact rolling.moved (Player.rolling_steady timeline) (.seek ms) fun p _ rolls =>
      rolls.opened_seek ordered within _

end Studio

namespace Deck

open Device (next)
open Studio (Shows)

variable {deck after : StudioDeck} {i : Nat}

theorem Comes.opens {request : Request} (comes : deck.Comes request after) (calm : deck.Calm)
    (unheld : deck.engine ≠ some i) (held : after.engine = some i) :
    deck.world.1.players[i]? = none ∧ after.state.status = .playing ∧
      Shows after.world i (Player.Opened after.state.positionMs after.world.1.now) := by
  cases comes with
  | same => exact absurd held unheld
  | gone _ empty =>
    rw [empty] at held
    cases held
  | looks => exact absurd held unheld
  | pauses => exact absurd held unheld
  | resumes => exact absurd held unheld
  | begins started loads here within =>
    obtain rfl := Option.some.inj (here.symm.trans held)
    obtain ⟨n, timeline, ordered, -, engine, duration, shows⟩ := load_shows calm loads
    obtain rfl := Option.some.inj (here.symm.trans engine)
    rw [duration] at within
    exact ⟨load_fresh calm loads here, rfl, Studio.launched_opened ordered within shows⟩

-- By induction on the requests from the end: the latest one that made the deck hold the engine.
theorem exists_opening {World Engine : Type} (d : Device World Engine) {deck : Deck World Engine}
    {e : Engine} (empty : deck.engine ≠ some e) {requests : List Request}
    (held : (deck.serveAll d requests).engine = some e) :
    ∃ before opening later, requests = before ++ opening :: later ∧
      (deck.serveAll d before).engine ≠ some e ∧
        ∀ part, part <+: later →
          (deck.serveAll d (before ++ opening :: part)).engine = some e := by
  induction requests using List.reverseRecOn with
  | nil => exact absurd held empty
  | append_singleton requests request ih =>
    by_cases earlier : (deck.serveAll d requests).engine = some e
    · obtain ⟨before, opening, later, rfl, unheld, always⟩ := ih earlier
      refine ⟨before, opening, later ++ [request], by simp, unheld, fun part here => ?_⟩
      rcases List.prefix_concat_iff.1 here with rfl | shorter
      · simpa using held
      · exact always part shorter
    · refine ⟨requests, request, [], rfl, earlier, fun part here => ?_⟩
      obtain rfl := List.prefix_nil.1 here
      exact held

/-- A pause that stops a player at its end. -/
def PausesEnded (deck : StudioDeck) (request : Request) : Prop :=
  ∃ tree i p, request = .operate tree .pause ∧ deck.state.status = .playing ∧
    deck.engine = some i ∧ (next deck.world).1.players[i]? = some p ∧ p.ended = true

/-- The request that opened a player, after the requests before it, and how it left the player. -/
structure OpenedBy (deck : StudioDeck) (before : List Request) (opening : Request) (i : Nat)
    (origin : Player) : Prop where
  fresh : (deck.serveAll Studio.device.amid before).world.1.players[i]? = none
  engine : (deck.serveAll Studio.device.amid (before ++ [opening])).engine = some i
  playing : (deck.serveAll Studio.device.amid (before ++ [opening])).state.status = .playing
  left : (deck.serveAll Studio.device.amid (before ++ [opening])).world.1.players[i]? = some origin
  opened : origin.Opened (deck.serveAll Studio.device.amid (before ++ [opening])).state.positionMs
    (deck.serveAll Studio.device.amid (before ++ [opening])).world.1.now

variable {requests before later : List Request} {opening : Request} {origin : Player}

theorem serveAll_opening (deck : StudioDeck) (before : List Request) (opening : Request)
    (later : List Request) : deck.serveAll Studio.device.amid (before ++ opening :: later) =
      (deck.serveAll Studio.device.amid (before ++ [opening])).serveAll Studio.device.amid
        later := by
  rw [← serveAll_append, List.append_assoc, List.singleton_append]

theorem openedBy_of_unheld (calm : deck.Calm)
    (unheld : (deck.serveAll Studio.device.amid before).engine ≠ some i)
    (held : (deck.serveAll Studio.device.amid (before ++ [opening])).engine = some i) :
    ∃ origin, deck.OpenedBy before opening i origin := by
  have comes := (deck.serveAll Studio.device.amid before).serve_comes opening
  have served : (deck.serveAll Studio.device.amid before).serve Studio.device.amid opening =
      deck.serveAll Studio.device.amid (before ++ [opening]) :=
    (serveAll_append _ _ before [opening]).symm
  rw [served] at comes
  obtain ⟨fresh, playing, shows⟩ := comes.opens (serveAll_calm calm before) unheld held
  obtain ⟨origin, left, opened⟩ := shows.here
  exact ⟨origin, fresh, held, playing, left, opened⟩

theorem OpenedBy.shows {P : Status → Player → Prop} (opened : deck.OpenedBy before opening i origin)
    (calm : deck.Calm)
    (held : ∀ part, part <+: later →
      (deck.serveAll Studio.device.amid (before ++ opening :: part)).engine = some i)
    (persists : Persists P) (initially : P .playing origin)
    (suits : ∀ part request, part ++ [request] <+: later →
      (deck.serveAll Studio.device.amid (before ++ opening :: part)).Suits P i request) :
    let after := deck.serveAll Studio.device.amid (before ++ opening :: later)
    Shows after.world i (P after.state.status) := by
  have onwards := deck.serveAll_opening before opening
  intro after
  have same : after = _ := onwards later
  rw [same]
  refine serveAll_shows persists (fun part here => ?_) (fun part request here => ?_) ⟨⟨origin,
    opened.left, ?_⟩, serveAll_calm calm (before ++ [opening])⟩
  · rw [← onwards part]
    exact held part here
  · rw [← onwards part]
    exact suits part request here
  · rw [opened.playing]
    exact initially

theorem owes_suits (ms : Nat) (deck : StudioDeck) (request : Request) :
    deck.Suits (Player.Owes ms) i request :=
  ⟨fun _ _ _ _ _ owes => owes.pause _, fun _ _ _ _ owes => owes.play _⟩

theorem OpenedBy.owes (opened : deck.OpenedBy before opening i origin) (calm : deck.Calm)
    (held : ∀ part, part <+: later →
      (deck.serveAll Studio.device.amid (before ++ opening :: part)).engine = some i) :
    let start := (deck.serveAll Studio.device.amid (before ++ [opening])).state.positionMs
    let after := deck.serveAll Studio.device.amid (before ++ opening :: later)
    Shows after.world i (Player.Owes start after.state.status) :=
  opened.shows calm held (Player.owes_persists _) opened.opened.owes fun _ _ _ => owes_suits _ _ _

/-- Whatever a deck holds was opened by one of the requests, is held since then, and owes what is
    due from its start on. -/
theorem exists_openedBy (calm : deck.Calm) (empty : deck.engine = none)
    (held : (deck.serveAll Studio.device.amid requests).engine = some i) :
    ∃ before opening later origin, requests = before ++ opening :: later ∧
      deck.OpenedBy before opening i origin ∧
      (∀ part, part <+: later →
        (deck.serveAll Studio.device.amid (before ++ opening :: part)).engine = some i) ∧
      let after := deck.serveAll Studio.device.amid requests
      Shows after.world i (Player.Owes
        (deck.serveAll Studio.device.amid (before ++ [opening])).state.positionMs
        after.state.status) := by
  have unheld : deck.engine ≠ some i := by simp [empty]
  obtain ⟨before, opening, later, rfl, other, always⟩ :=
    exists_opening Studio.device.amid unheld held
  obtain ⟨origin, opened⟩ := openedBy_of_unheld calm other (always [] List.nil_prefix)
  exact ⟨before, opening, later, origin, rfl, opened, always, opened.owes calm always⟩

theorem unheld_of_fresh (calm : deck.Calm) (empty : deck.engine = none)
    (fresh : (deck.serveAll Studio.device.amid requests).world.1.players[i]? = none) :
    (deck.serveAll Studio.device.amid requests).engine ≠ some i := by
  intro held
  obtain ⟨_, _, _, _, -, -, -, owes⟩ := exists_openedBy calm empty held
  obtain ⟨p, present, -⟩ := owes.here
  rw [fresh] at present
  cases present

theorem OpenedBy.continues (opened : deck.OpenedBy before opening i origin) (calm : deck.Calm)
    (held : ∀ part, part <+: later →
      (deck.serveAll Studio.device.amid (before ++ opening :: part)).engine = some i)
    (ongoing : ∀ part request, part ++ [request] <+: later →
      ¬ (deck.serveAll Studio.device.amid (before ++ opening :: part)).PausesEnded request) :
    let after := deck.serveAll Studio.device.amid (before ++ opening :: later)
    Shows after.world i (origin.Continues after.state.status) := by
  refine opened.shows calm held (Player.continues_persists origin) opened.opened.continues ?_
  intro part request here
  refine ⟨fun tree pauses playing p found continues => ?_, fun _ _ _ _ same => same.play _⟩
  have engine := held part ((List.prefix_append part [request]).trans here)
  cases ended : p.ended with
  | false => exact continues.pause ended _
  | true =>
    exact absurd ⟨tree, i, p, pauses, playing, engine, found, ended⟩ (ongoing part request here)

theorem calm_empty (studio : Studio) (meantime : List (FileTree × List (Nat × Nat))) :
    (Deck.empty (studio, meantime.map fun (tree, rounds) (s : Studio) =>
      s.meanwhile tree rounds) : StudioDeck).Calm := by
  intro step member
  obtain ⟨between, -, rfl⟩ := List.mem_map.1 member
  exact ⟨between.1, between.2, rfl⟩

end Deck

def noteTree : FileTree :=
  ⟨[], [(["score.midi"], .file (Text.Utf8.encode "MThd" ++ [0, 0, 0, 6, 0, 0, 0, 1, 0, 1] ++
    Text.Utf8.encode "MTrk" ++ [0, 0, 0, 8, 0, 0x90, 60, 80, 4, 0xff, 0x2f, 0]))]⟩

def Studio.ofNote : Studio :=
  ⟨noteTree, .present [] ["synth"], none, 0, []⟩

end ScoreDesk.Transport
