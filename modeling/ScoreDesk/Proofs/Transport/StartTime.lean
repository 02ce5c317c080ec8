import Mathlib
import ScoreDesk.Proofs.Runs
import ScoreDesk.Proofs.SortedList
import ScoreDesk.Proofs.Transport.Playthrough

namespace ScoreDesk.Transport

open Smf (Timeline TimedMessage)

namespace Player

/-- A player that was started at an instant at the beginning of a timeline, and not touched since
    then. -/
structure Begun (timeline : Timeline) (instant : Nat) (p : Player) : Prop where
  rolling : p.Rolling timeline
  since : ∀ since, p.playhead.startedAt = some since →
    since = instant ∧ p.playhead.startMs = 0

section Begun

variable {timeline : Timeline} {instant : Nat} {p : Player}

theorem begun_play (timeline : Timeline) (now : Nat) :
    ((ofTimeline timeline).play now).Begun timeline now :=
  ⟨rolling_play timeline now, fun _ started => ⟨(Option.some.inj started).symm, rfl⟩⟩

theorem begun_steady (timeline : Timeline) (instant : Nat) : Steady (Begun timeline instant) := by
  intro now p begun
  refine ⟨rolling_steady timeline now p begun.rolling, ?_⟩
  rcases p.work_cases now with ⟨-, same⟩ | ⟨running, -, goes⟩ | ⟨-, -, ends⟩
  · rw [same]
    exact begun.since
  · rw [goes]
    obtain ⟨since, started⟩ := Option.isSome_iff_exists.1 running
    have ticked : p.playhead.tick now =
        { p.playhead with currentMs := (p.playhead.tick now).currentMs } := by
      simp [Playhead.tick, started]
    intro since' after
    change (p.playhead.tick now).startedAt = some since' at after
    change since' = instant ∧ (p.playhead.tick now).startMs = 0
    rw [ticked] at after ⊢
    exact begun.since since' after
  · rw [ends]
    intro since started
    cases started

theorem Begun.positionAt (begun : p.Begun timeline instant)
    (running : p.playhead.isRunning = true) (now : Nat) :
    p.positionAt now = elapsedMs instant now := by
  obtain ⟨since, started⟩ := Option.isSome_iff_exists.1 running
  obtain ⟨rfl, beginning⟩ := begun.since since started
  have bound : elapsedMs since now ≤ positionLimit := Nat.min_le_right _ _
  simp only [Player.positionAt, Playhead.tick, started, beginning]
  omega

theorem Begun.mem_handed_work (begun : p.Begun timeline instant) (ordered : timeline.Ordered)
    (now : Nat) (m : TimedMessage) :
    m ∈ (p.work now).handed ↔
      m ∈ p.handed ∨ m ∈ timeline.messages ∧ m.atMs ≤ elapsedMs instant now := by
  obtain ⟨⟨rfl, underway, programme⟩, -⟩ := id begun
  cases running : p.playhead.isRunning with
  | false =>
    -- It has come to its end, and all was handed over.
    have ended : p.ended = true := by
      have runs : p.playhead.isRunning = !p.ended := underway
      rw [running] at runs
      simpa using runs.symm
    rw [work_stopped now p running, ← programme, programme_of_ended ended]
    exact ⟨.inl, fun cause => cause.elim id And.left⟩
  | true =>
    have unended := underway.unended running
    have fresh : p.fresh now = (p.timeline.messages.drop p.cursor).filter
        (·.atMs ≤ elapsedMs instant now) := by
      unfold Player.fresh due
      rw [begun.positionAt running]
      refine takeWhile_eq_filter (List.Pairwise.drop (ordered.imp fun {a b} le => ?_))
      simp only [decide_eq_true_eq]
      omega
    have parts : p.programme = p.handed ++ p.timeline.messages.drop p.cursor := by
      rw [Player.programme, remaining, unended]
      rfl
    have whole : m ∈ p.timeline.messages ↔
        m ∈ p.handed ∨ m ∈ p.timeline.messages.drop p.cursor := by
      rw [← List.mem_append, ← parts, programme]
    rw [handed_work, if_pos running, fresh, List.mem_append, List.mem_filter, decide_eq_true_eq,
      whole]
    tauto

end Begun

end Player

namespace Studio

def Early (s : Studio) (i t : Nat) : Prop :=
  ∃ p, s.players[i]? = some p ∧ ∃ m ∈ p.handed, m.atMs < t

/-- A message before a time is due when a worker takes a round after a start. -/
def DueBefore (timeline : Timeline) (since t : Nat) (s : Studio) (instant : Nat) : Prop :=
  ∃ m ∈ timeline.messages, m.atMs < t ∧ m.atMs ≤ elapsedMs since (max s.now instant)

theorem early_iff {s : Studio} {i t : Nat} {p : Player} (here : s.players[i]? = some p) :
    s.Early i t ↔ ∃ m ∈ p.handed, m.atMs < t := by
  simp [Early, here]

theorem early_work_iff {s : Studio} {i since : Nat} {timeline : Timeline} {p : Player}
    (ordered : timeline.Ordered) (here : s.players[i]? = some p) (begun : p.Begun timeline since)
    (j instant t : Nat) :
    (s.work j instant).Early i t ↔ j = i ∧ s.DueBefore timeline since t instant ∨ s.Early i t := by
  have worked := exists_of_work here j instant
  rw [early_iff here, early_iff worked]
  by_cases own : j = i
  · rw [if_pos own]
    simp only [begun.mem_handed_work ordered, own, true_and, DueBefore]
    constructor
    · rintro ⟨m, earlier | ⟨member, due⟩, before⟩
      · exact .inr ⟨m, earlier, before⟩
      · exact .inl ⟨m, member, before, due⟩
    · rintro (⟨m, member, before, due⟩ | ⟨m, earlier, before⟩)
      · exact ⟨m, .inr ⟨member, due⟩, before⟩
      · exact ⟨m, .inl earlier, before⟩
  · rw [if_neg own]
    exact ⟨.inr, fun cause => cause.elim (fun due => absurd due.1 own) id⟩

/-- A player that was begun before some rounds has handed over a message before a time exactly when
    one of the rounds was its worker's and came when such a message was due. -/
theorem early_iff_round {s : Studio} {i : Nat} {timeline : Timeline} (ordered : timeline.Ordered)
    (here : s.players[i]? = some ((Player.ofTimeline timeline).play s.now)) (tree : FileTree)
    (gap : List (Nat × Nat)) (t : Nat) :
    (s.meanwhile tree gap).Early i t ↔
      ∃ earlier instant rest, gap = earlier ++ (i, instant) :: rest ∧
        (s.meanwhile tree earlier).DueBefore timeline s.now t instant := by
  have silent : ¬ ({ s with tree } : Studio).Early i t := by
    rintro ⟨p, there, m, member, _⟩
    obtain rfl := Option.some.inj (here.symm.trans there)
    cases member
  have causes := @foldl_iff_last_cause _ _ (fun (s : Studio) (round : Nat × Nat) =>
    s.work round.1 round.2) { s with tree } (·.Early i t)
    (fun s' round => round.1 = i ∧ s'.DueBefore timeline s.now t round.2) (fun _ => True)
    silent gap fun rounds round _ => by
      obtain ⟨p, there, begun⟩ := exists_of_meanwhile (Player.begun_steady timeline s.now)
        ⟨_, here, Player.begun_play timeline s.now⟩ tree rounds
      rw [and_true]
      exact early_work_iff ordered there begun round.1 round.2 t
  refine causes.trans ⟨?_, ?_⟩
  · rintro ⟨earlier, ⟨_, instant⟩, rest, split, ⟨rfl, due⟩, _⟩
    exact ⟨earlier, instant, rest, split, due⟩
  · rintro ⟨earlier, instant, rest, split, due⟩
    exact ⟨earlier, (i, instant), rest, split, ⟨rfl, due⟩, fun _ _ => trivial⟩

theorem Shows.played {course : Course} {i : Nat} {timeline : Timeline} (ordered : timeline.Ordered)
    (shows : Shows course i (· = .ofTimeline timeline)) {tree : FileTree} {gap : List (Nat × Nat)}
    (between : (Device.next (Studio.moved i course .play)).1 =
      (Studio.moved i course .play).1.meanwhile tree gap) (t : Nat) :
    let played := Studio.moved i course .play
    ∃ g, (Device.next played).1.players[i]? = some g ∧ g.timeline = timeline ∧
      ((∃ m ∈ g.handed, m.atMs < t) ↔
        ∃ earlier instant rest, gap = earlier ++ (i, instant) :: rest ∧
          (played.1.meanwhile tree earlier).DueBefore timeline played.1.now t instant) := by
  intro played
  have started : Shows played i (· = (Player.ofTimeline timeline).play played.1.now) :=
    shows.moved (Player.steady_eq rfl) .play fun p _ same => same ▸ rfl
  obtain ⟨first, began, rfl⟩ := started.here
  have begun : Shows played i (Player.Begun timeline played.1.now) :=
    started.imp fun p _ same => same ▸ Player.begun_play timeline _
  obtain ⟨g, there, begun⟩ := (begun.next (Player.begun_steady timeline _)).here
  have rounds := early_iff_round ordered began tree gap t
  rw [← between, early_iff there] at rounds
  exact ⟨g, there, begun.rolling.same, rounds⟩

end Studio

namespace Player

theorem Continues.early_iff {origin p g : Player} {status : Status} {t now : Nat}
    (continues : origin.Continues status p) (sought : origin = g.seek now t)
    (ordered : g.timeline.Ordered) (within : t ≤ g.timeline.durationMs) :
    (∃ m ∈ p.handed, m.atMs < t) ↔ ∃ m ∈ g.handed, m.atMs < t := by
  have handed : origin.handed = g.handed := by rw [sought, handed_seek]
  constructor
  · rintro ⟨m, member, before⟩
    have planned := p.handed_prefix_programme.subset member
    rw [continues.programme, Player.programme, handed, List.mem_append] at planned
    rcases planned with earlier | remaining
    · exact ⟨m, earlier, before⟩
    · rw [sought, remaining_seek, Nat.min_eq_left within, ordered.drop_indexAt] at remaining
      split at remaining
      · cases remaining
      · have later := List.of_mem_filter remaining
        rw [decide_eq_true_eq] at later
        omega
  · rintro ⟨m, member, before⟩
    rw [← handed] at member
    exact ⟨m, continues.handed.subset member, before⟩

end Player

namespace Deck

open Device (next)
open Studio (Shows moved)

variable {deck loaded : StudioDeck} {i t : Nat} {files : FileTree} {source : Path}
variable {ask : String → Option String} {answer : String}

theorem load_of_cue (cues : deck.cue Studio.device.amid files source = (.ok (), loaded)) :
    ∃ path, deck.load Studio.device.amid path = (.ok (), loaded) := by
  cases found : renditionOf files source with
  | error x =>
    rw [cue_missing _ _ found] at cues
    cases cues
  | ok path => exact ⟨path, (cue_found _ _ found).symm.trans cues⟩

theorem playFrom_studio (cues : deck.cue Studio.device.amid files source = (.ok (), loaded))
    (held : loaded.engine = some i) (given : ask (display loaded.state.durationMs) = some answer)
    (accepted : startTime loaded.state.durationMs answer = .ok t) :
    deck.playFrom Studio.device.amid files source ask = (.ok (), { loaded with
      world := Studio.launched i loaded.world t
      state := { loaded.state with status := .playing, positionMs := t } }) := by
  have starts : StartsAt loaded.state.durationMs t (some ask) := ⟨answer, given, accepted⟩
  have begins : deck.playFrom Studio.device.amid files source ask =
      loaded.begin Studio.device.amid (some ask) := by
    unfold playFrom
    rw [cues]
    rfl
  rw [begins, begin_of_startsAt starts, start_studio held]

/-- A playback from a start time hands over a message from before that time exactly when, between
    the calls that play it and move it, its worker takes a round when such a message is due; as
    long as it goes on without a pause that finds it at its end. -/
theorem early_message_iff_round_before_seek (tree : FileTree) (system : Midi.System)
    (output : Option String) (now : Nat) (meantime : List (FileTree × List (Nat × Nat)))
    (before : List Request) (files : FileTree) (source : Path) (ask : String → Option String)
    (later : List Request) (last : FileTree × List (Nat × Nat)) (loaded : StudioDeck) (i t : Nat)
    (answer : String) (gapTree : FileTree) (gap : List (Nat × Nat)) :
    let studio : Studio := { tree, system, output, now, players := [] }
    let steps := meantime.map fun (tree, rounds) (s : Studio) => s.meanwhile tree rounds
    let run := Deck.serveAll Studio.device.amid (.empty (studio, steps))
    let asked := run before
    let request : Request := .operate files (.playFrom source ask)
    let played := (Studio.device.amid.play i loaded.world).2
    asked.cue Studio.device.amid files source = (.ok (), loaded) → loaded.engine = some i →
    ask (display loaded.state.durationMs) = some answer →
    startTime loaded.state.durationMs answer = .ok t → t ≠ 0 →
    (next played).1 = played.1.meanwhile gapTree gap →
    (∀ part, part <+: later → (run (before ++ request :: part)).engine = some i) →
    (∀ part next, part ++ [next] <+: later →
      ¬ (run (before ++ request :: part)).PausesEnded next) →
      (asked.playFrom Studio.device.amid files source ask).1 = .ok () ∧
      ∃ p, ((run (before ++ request :: later)).world.1.meanwhile last.1 last.2).players[i]? =
          some p ∧
        ((∃ m ∈ p.handed, m.atMs < t) ↔
          ∃ earlier instant rest, gap = earlier ++ (i, instant) :: rest ∧
            (played.1.meanwhile gapTree earlier).DueBefore p.timeline played.1.now t instant) := by
  intro studio steps run asked request played cues held given accepted elsewhere between always
    ongoing
  have outcome := playFrom_studio cues held given accepted
  refine ⟨congrArg Prod.fst outcome, ?_⟩
  have calm : (Deck.empty (studio, steps) : StudioDeck).Calm := calm_empty studio meantime
  have calm_asked : asked.Calm := serveAll_calm calm before
  obtain ⟨path, loads⟩ := load_of_cue cues
  have fresh := load_fresh calm_asked loads held
  obtain ⟨n, timeline, ordered, -, engine, duration, shows⟩ := load_shows calm_asked loads
  obtain rfl := Option.some.inj (held.symm.trans engine)
  have within : t ≤ timeline.durationMs := duration ▸ startTime_le accepted
  have plays : played = moved i loaded.world .play := congrArg Prod.snd (Studio.amid_play i _)
  rw [plays] at between ⊢
  obtain ⟨g, there, rfl, rounds⟩ := shows.played ordered between t
  -- The player as it was opened is the one that the move found, at the start time.
  have unheld : asked.engine ≠ some i := unheld_of_fresh calm rfl fresh
  obtain ⟨origin, opened⟩ := openedBy_of_unheld calm unheld (always [] List.nil_prefix)
  have left : (run (before ++ [request])).world =
      moved i (moved i loaded.world .play) (.seek t) := by
    have served : run (before ++ [request]) =
        (asked.playFrom Studio.device.amid files source ask).2 :=
      serveAll_append _ _ before [request]
    rw [served, outcome]
    exact if_neg elsewhere
  have sought : origin = g.seek (next (moved i loaded.world .play)).1.now t := by
    have same := opened.left
    rw [left] at same
    exact Option.some.inj (same.symm.trans (Studio.getElem?_update there))
  have continues := opened.continues calm always ongoing
  obtain ⟨p, here, goesOn⟩ := Studio.exists_of_meanwhile
    ((Player.continues_persists origin).steady _) continues.here last.1 last.2
  have timelines : p.timeline = g.timeline := by rw [goesOn.timeline, sought]; rfl
  refine ⟨p, here, ?_⟩
  rw [timelines]
  exact (goesOn.early_iff sought ordered within).trans rounds

/-- A second into a file of two seconds, with no round between the two calls, the note at its
    beginning is left out. -/
theorem note_before_start_is_left_out :
    let tree := noteTree
    let request : Request := .operate tree (.playFrom ⟨"score.ly"⟩ fun _ => some "0:01")
    let deck := Deck.serveAll Studio.device.amid (.empty (.ofNote, [])) [request]
    ∃ p, (deck.world.1.meanwhile tree [(0, 500000000)]).players[0]? = some p ∧
      ∀ m ∈ p.handed, 1000 ≤ m.atMs := by
  intro tree request deck
  let cued := (Deck.empty (.ofNote, [])).cue Studio.device.amid tree ⟨"score.ly"⟩
  let loaded := cued.2
  have loads : cued.1 = .ok () := by decide +kernel
  have held : loaded.engine = some 0 := by decide +kernel
  have accepted : startTime loaded.state.durationMs "0:01" = .ok 1000 := by decide +kernel
  have plays : deck.engine = some 0 := by decide +kernel
  obtain ⟨-, p, here, early⟩ := early_message_iff_round_before_seek tree (.present [] ["synth"])
    none 0 [] [] tree ⟨"score.ly"⟩ (fun _ => some "0:01") [] (tree, [(0, 500000000)]) loaded 0 1000
    "0:01" tree [] (Prod.ext loads rfl) held rfl accepted (by decide) rfl
    (fun part here => (List.prefix_nil.1 here).symm ▸ plays)
    (fun part next here => absurd (List.prefix_nil.1 here) (by simp))
  refine ⟨p, here, fun m member => ?_⟩
  by_contra before
  obtain ⟨earlier, instant, rest, split, -⟩ := early.1 ⟨m, member, by omega⟩
  simp at split

/-- The worker's round between the two calls, five milliseconds after the first, hands it over. -/
theorem note_before_start_is_handed_over :
    let tree := noteTree
    let rounds : List (List (Nat × Nat)) := [[], [], [], [(0, 5000000)]]
    let steps := rounds.map fun rounds (s : Studio) => s.meanwhile tree rounds
    let started := (Deck.empty (.ofNote, steps)).playFrom Studio.device.amid tree ⟨"score.ly"⟩
      fun _ => some "0:01"
    started.1 = .ok () ∧ started.2.state.positionMs = 1000 ∧
      (started.2.world.1.players[0]?).map (·.handed) = some [⟨0, [0x90, 60, 80]⟩] := by
  decide +kernel

end Deck

end ScoreDesk.Transport
