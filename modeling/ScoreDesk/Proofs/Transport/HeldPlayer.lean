import Mathlib
import ScoreDesk.Proofs.Transport.FailedOperations
import ScoreDesk.Proofs.Transport.LateLooks
import ScoreDesk.Proofs.Transport.Programme
import ScoreDesk.Proofs.Transport.StudioSilence

namespace ScoreDesk.Transport

open Smf (Timeline TimedMessage)

namespace Device

variable {World Engine : Type}

def next : World × List (World → World) → World × List (World → World)
  | (w, []) => (w, [])
  | (w, step :: rest) => (step w, rest)

theorem afterStep_eq {α : Type} (call : World → α × World)
    (world : World × List (World → World)) :
    afterStep call world =
      ((call (next world).1).1, (call (next world).1).2, (next world).2) := by
  obtain ⟨w, steps⟩ := world
  cases steps <;> rfl

end Device

open Device (next)

namespace Studio

/-- A studio, and what is to happen in it before each of the calls to come. -/
abbrev Course := Studio × List (Studio → Studio)

def Interlude (step : Studio → Studio) : Prop :=
  ∃ tree rounds, step = fun s => s.meanwhile tree rounds

structure Shows (course : Course) (i : Nat) (P : Player → Prop) : Prop where
  here : ∃ p, course.1.players[i]? = some p ∧ P p
  interludes : ∀ step ∈ course.2, Interlude step

section Players

variable {s : Studio} {course : Course} {i : Nat} {P Q : Player → Prop}

theorem getElem?_update {f : Player → Player} {p : Player} (here : s.players[i]? = some p) :
    (s.update i f).players[i]? = some (f p) := by
  simp [update, here]

theorem length_update (i : Nat) (f : Player → Player) :
    (s.update i f).players.length = s.players.length :=
  List.length_modify ..

theorem length_meanwhile (tree : FileTree) (rounds : List (Nat × Nat)) :
    (s.meanwhile tree rounds).players.length = s.players.length := by
  have rounds_length (s : Studio) : (s.workAll rounds).players.length = s.players.length := by
    induction rounds generalizing s with
    | nil => rfl
    | cons round rest ih => exact (ih (s.work round.1 round.2)).trans (length_update _ _)
  exact rounds_length { s with tree }

theorem exists_of_work {p : Player} (here : s.players[i]? = some p) (j now : Nat) :
    (s.work j now).players[i]? = some (if j = i then p.work (max s.now now) else p) := by
  change (s.players.modify j _)[i]? = _
  rw [List.getElem?_modify, here]
  split <;> rfl

theorem exists_of_meanwhile (steady : Player.Steady P)
    (here : ∃ p, s.players[i]? = some p ∧ P p) (tree : FileTree) (rounds : List (Nat × Nat)) :
    ∃ p, (s.meanwhile tree rounds).players[i]? = some p ∧ P p := by
  have worked (s : Studio) (here : ∃ p, s.players[i]? = some p ∧ P p) :
      ∃ p, (s.workAll rounds).players[i]? = some p ∧ P p := by
    induction rounds generalizing s with
    | nil => exact here
    | cons round rest ih =>
      obtain ⟨p, found, holds⟩ := here
      refine ih (s.work round.1 round.2) ⟨_, exists_of_work found round.1 round.2, ?_⟩
      split
      · exact steady _ p holds
      · exact holds
  exact worked { s with tree } here

theorem interludes_next (interludes : ∀ step ∈ course.2, Interlude step) :
    ∀ step ∈ (next course).2, Interlude step := by
  obtain ⟨s, steps⟩ := course
  cases steps with
  | nil => exact interludes
  | cons step rest => exact fun later member => interludes later (List.mem_cons_of_mem _ member)

theorem length_next (interludes : ∀ step ∈ course.2, Interlude step) :
    (next course).1.players.length = course.1.players.length := by
  obtain ⟨s, steps⟩ := course
  cases steps with
  | nil => rfl
  | cons step rest =>
    obtain ⟨tree, rounds, rfl⟩ := interludes step List.mem_cons_self
    exact length_meanwhile tree rounds

theorem Shows.next (shows : Shows course i P) (steady : Player.Steady P) :
    Shows (next course) i P := by
  obtain ⟨here, interludes⟩ := shows
  obtain ⟨s, steps⟩ := course
  cases steps with
  | nil => exact ⟨here, interludes⟩
  | cons step rest =>
    obtain ⟨tree, rounds, rfl⟩ := interludes step List.mem_cons_self
    exact ⟨exists_of_meanwhile steady here tree rounds,
      fun later member => interludes later (List.mem_cons_of_mem _ member)⟩

theorem Shows.imp (shows : Shows course i P)
    (gives : ∀ p, course.1.players[i]? = some p → P p → Q p) : Shows course i Q := by
  obtain ⟨p, here, holds⟩ := shows.here
  exact ⟨⟨p, here, gives p here holds⟩, shows.interludes⟩

theorem Shows.and (shows : Shows course i P) (also : Shows course i Q) :
    Shows course i fun p => P p ∧ Q p := by
  obtain ⟨p, here, holds⟩ := shows.here
  refine also.imp fun q there fits => ⟨?_, fits⟩
  obtain rfl := Option.some.inj (here.symm.trans there)
  exact holds

theorem Shows.update (shows : Shows course i P) {f : Player → Player}
    (gives : ∀ p, course.1.players[i]? = some p → P p → Q (f p)) :
    Shows (course.1.update i f, course.2) i Q := by
  obtain ⟨p, here, holds⟩ := shows.here
  exact ⟨⟨f p, getElem?_update here, gives p here holds⟩, shows.interludes⟩

end Players

section Calls

variable (i : Nat) (course : Course)

def moved (move : Move) : Course :=
  ((next course).1.update i (·.move (next course).1.now move), (next course).2)

theorem amid_play : device.amid.play i course = (.ok (), moved i course .play) :=
  Device.afterStep_eq _ _

theorem amid_pause : device.amid.pause i course = (.ok (), moved i course .pause) :=
  Device.afterStep_eq _ _

theorem amid_stop : device.amid.stop i course = (.ok (), moved i course .stop) :=
  Device.afterStep_eq _ _

theorem amid_seek (ms : Nat) :
    device.amid.seek i ms course = (.ok (), moved i course (.seek ms)) :=
  Device.afterStep_eq _ _

theorem amid_position : (device.amid.position i course).2 = moved i course .look :=
  congrArg Prod.snd (Device.afterStep_eq _ _)

def launched (ms : Nat) : Course :=
  if ms = 0 then moved i course .play else moved i (moved i course .play) (.seek ms)

theorem launch_amid (ms : Nat) :
    Deck.launch device.amid i ms course = (.ok (), launched i course ms) := by
  unfold Deck.launch launched
  rw [amid_play]
  dsimp only
  split
  · rfl
  · rw [amid_seek]

theorem amid_duration : (device.amid.duration i course).2 = next course :=
  congrArg Prod.snd (Device.afterStep_eq _ _)

theorem amid_ended : (device.amid.ended i course).2 = next course :=
  congrArg Prod.snd (Device.afterStep_eq _ _)

variable {i course} {p : Player}

theorem amid_load_error {path : Path} {x : TransportError}
    (made : (next course).1.load path = .error x) :
    device.amid.load path course = (.error x, next course) := by
  refine (Device.afterStep_eq _ _).trans ?_
  dsimp only [device]
  rw [made]

theorem amid_load_ok {path : Path} (made : (next course).1.load path = .ok p) :
    device.amid.load path course = (.ok (next course).1.players.length,
      { (next course).1 with players := (next course).1.players ++ [p] }, (next course).2) := by
  refine (Device.afterStep_eq _ _).trans ?_
  dsimp only [device]
  rw [made]

theorem position_of_player (here : (next course).1.players[i]? = some p) :
    (device.amid.position i course).1 = p.positionAt (next course).1.now := by
  have found := getElem?_update (f := (·.tick (next course).1.now)) here
  refine (congrArg Prod.fst (Device.afterStep_eq (device.position i) course)).trans ?_
  change ((((next course).1.update i _).players[i]?).map _).getD 0 = _
  rw [found]
  rfl

theorem duration_of_player (here : (next course).1.players[i]? = some p) :
    (device.amid.duration i course).1 = p.timeline.durationMs := by
  refine (congrArg Prod.fst (Device.afterStep_eq (device.duration i) course)).trans ?_
  change (((next course).1.players[i]?).map _).getD 0 = _
  rw [here]
  rfl

theorem ended_of_player (here : (next course).1.players[i]? = some p) :
    (device.amid.ended i course).1 = p.ended := by
  refine (congrArg Prod.fst (Device.afterStep_eq (device.ended i) course)).trans ?_
  change (((next course).1.players[i]?).map _).getD false = _
  rw [here]
  rfl

theorem Shows.moved {P Q : Player → Prop} (shows : Shows course i P) (steady : Player.Steady P)
    (move : Move)
    (gives : ∀ p, (Device.next course).1.players[i]? = some p → P p →
      Q (p.move (Device.next course).1.now move)) :
    Shows (moved i course move) i Q :=
  (shows.next steady).update gives

theorem length_moved (interludes : ∀ step ∈ course.2, Interlude step) (move : Move) :
    (moved i course move).1.players.length = course.1.players.length :=
  (length_update _ _).trans (length_next interludes)

end Calls

end Studio

/-- A deck over a studio in which workers take rounds between the calls. -/
abbrev StudioDeck := Deck Studio.Course Nat

namespace Deck

open Studio (Interlude Shows)

variable {deck loaded : StudioDeck} {i : Nat} {tree : FileTree}

section Loading

def Calm (deck : StudioDeck) : Prop :=
  ∀ step ∈ deck.world.2, Interlude step

theorem reset_calm (calm : deck.Calm) :
    (deck.reset Studio.device.amid).Calm ∧
      (deck.reset Studio.device.amid).world.1.players.length = deck.world.1.players.length := by
  unfold reset
  cases deck.engine with
  | none => exact ⟨calm, rfl⟩
  | some e =>
    dsimp only
    rw [Studio.amid_stop]
    exact ⟨Studio.interludes_next calm, Studio.length_moved calm .stop⟩

theorem load_shows (calm : deck.Calm) {path : Path}
    (ok : deck.load Studio.device.amid path = (.ok (), loaded)) :
    ∃ n timeline, timeline.Ordered ∧ deck.world.1.players.length ≤ n ∧
      loaded.engine = some n ∧ loaded.state.durationMs = timeline.durationMs ∧
      Shows loaded.world n (· = .ofTimeline timeline) := by
  obtain ⟨fresh_calm, same_length⟩ := reset_calm calm
  unfold load at ok
  generalize deck.reset Studio.device.amid = fresh at ok fresh_calm same_length
  have kept := Studio.length_next fresh_calm
  dsimp only at ok
  cases made : (next fresh.world).1.load path with
  | error x =>
    rw [Studio.amid_load_error made] at ok
    cases ok
  | ok player =>
    obtain ⟨timeline, ordered, rfl⟩ := Studio.ofTimeline_of_load made
    rw [Studio.amid_load_ok made] at ok
    obtain rfl := (Prod.mk.inj ok).2
    have added : Shows ({ (next fresh.world).1 with
          players := (next fresh.world).1.players ++ [.ofTimeline timeline] },
        (next fresh.world).2) (next fresh.world).1.players.length (· = .ofTimeline timeline) :=
      ⟨⟨_, List.getElem?_concat_length, rfl⟩, Studio.interludes_next fresh_calm⟩
    have found := added.next (Player.steady_eq rfl)
    obtain ⟨p, here, rfl⟩ := found.here
    refine ⟨_, timeline, ordered, by omega, rfl, Studio.duration_of_player here, ?_⟩
    dsimp only
    rw [Studio.amid_duration]
    exact found

theorem load_fresh (calm : deck.Calm) {path : Path}
    (ok : deck.load Studio.device.amid path = (.ok (), loaded)) (held : loaded.engine = some i) :
    deck.world.1.players[i]? = none := by
  obtain ⟨n, timeline, -, fresh, engine, -⟩ := load_shows calm ok
  obtain rfl := Option.some.inj (held.symm.trans engine)
  exact List.getElem?_eq_none fresh

end Loading

section Requests

/-- A request that starts what a deck holds then, or goes on with it, and succeeds. -/
def Restarts (deck : StudioDeck) (request : Request) : Prop :=
  ∃ tree operation, request = .operate tree operation ∧ operation.starts = true ∧
    (deck.operate Studio.device.amid tree operation).1 = .ok ()

/-- What comes of a request to a deck over a studio: it leaves the deck as it was or without a
    player, or it makes its calls to the player that is held, or it starts a player of its own. -/
inductive Comes (deck : StudioDeck) : Request → StudioDeck → Prop
  | same {request : Request} (unstarted : ¬ deck.Restarts request) : Comes deck request deck
  | gone {request : Request} {after : StudioDeck} (unstarted : ¬ deck.Restarts request)
      (unheld : after.engine = none) : Comes deck request after
  | looks {i positionMs durationMs : Nat} (playing : deck.state.status = .playing)
      (held : deck.engine = some i) :
      Comes deck .poll { deck with
        world := next (next (Studio.moved i deck.world .look))
        state := { deck.state with positionMs, durationMs } }
  | pauses {tree : FileTree} {i positionMs : Nat} (playing : deck.state.status = .playing)
      (held : deck.engine = some i) :
      Comes deck (.operate tree .pause) { deck with
        world := Studio.moved i (Studio.moved i deck.world .pause) .look
        state := { deck.state with positionMs, status := .paused } }
  | resumes {tree : FileTree} {source : Path} {i : Nat}
      (started : deck.Restarts (.operate tree (.resume source)))
      (paused : deck.state.status = .paused) (held : deck.engine = some i) :
      Comes deck (.operate tree (.resume source)) { deck with
        world := Studio.moved i deck.world .play
        state := { deck.state with status := .playing } }
  | begins {tree : FileTree} {operation : Operation} {path : Path} {loaded : StudioDeck}
      {i ms : Nat} (started : deck.Restarts (.operate tree operation))
      (loads : deck.load Studio.device.amid path = (.ok (), loaded))
      (held : loaded.engine = some i) (within : ms ≤ loaded.state.durationMs) :
      Comes deck (.operate tree operation) { loaded with
        world := Studio.launched i loaded.world ms
        state := { loaded.state with status := .playing, positionMs := ms } }

variable {request : Request} {after : StudioDeck}

theorem start_studio (held : deck.engine = some i) (ms : Nat) :
    deck.start Studio.device.amid ms = (.ok (), { deck with
      world := Studio.launched i deck.world ms
      state := { deck.state with status := .playing, positionMs := ms } }) := by
  simp only [start, held, Studio.launch_amid]

theorem pause_studio (playing : deck.state.status = .playing) (held : deck.engine = some i) :
    ∃ positionMs, deck.pause Studio.device.amid = (.ok (), { deck with
      world := Studio.moved i (Studio.moved i deck.world .pause) .look
      state := { deck.state with positionMs, status := .paused } }) := by
  refine ⟨(Studio.device.amid.position i (Studio.moved i deck.world .pause)).1, ?_⟩
  simp only [pause, playing, held, Studio.amid_pause, Studio.amid_position]

theorem resume_studio (source : Path) (paused : deck.state.status = .paused)
    (held : deck.engine = some i) :
    deck.resume Studio.device.amid tree source = (.ok (), { deck with
      world := Studio.moved i deck.world .play
      state := { deck.state with status := .playing } }) := by
  simp only [resume, paused, held, Studio.amid_play]

theorem not_restarts_poll : ¬ deck.Restarts .poll := by
  rintro ⟨_, _, same, _⟩
  cases same

theorem not_restarts_of_halts {operation : Operation} (halts : operation.starts = false) :
    ¬ deck.Restarts (.operate tree operation) := by
  rintro ⟨_, _, same, starts, _⟩
  obtain ⟨rfl, rfl⟩ := Request.operate.inj same
  rw [halts] at starts
  cases starts

theorem not_restarts_of_fails {operation : Operation} {x : TransportError}
    (fails : (deck.operate Studio.device.amid tree operation).1 = .error x) :
    ¬ deck.Restarts (.operate tree operation) := by
  rintro ⟨_, _, same, _, ok⟩
  obtain ⟨rfl, rfl⟩ := Request.operate.inj same
  rw [fails] at ok
  cases ok

theorem Begins.comes {operation : Operation} {source : Path}
    {ask : Option (String → Option String)} (begins : deck.Begins operation source ask) :
    deck.Comes (.operate tree operation) (deck.operate Studio.device.amid tree operation).2 := by
  cases found : renditionOf tree source with
  | error x =>
    have missing := begins.missing (d := Studio.device.amid) found
    have unstarted := not_restarts_of_fails (congrArg Prod.fst missing)
    rw [missing]
    exact .same unstarted
  | ok path =>
    rcases begins.settled (d := Studio.device.amid) found with ⟨ok, _⟩ | ⟨⟨x, fails⟩, unloaded⟩
    · obtain ⟨path, loaded, ms, loads, starts, started⟩ := begins.succeeds ok
      obtain ⟨i, held⟩ := engine_of_load loads
      have restarts : deck.Restarts (.operate tree operation) :=
        ⟨_, _, rfl, by cases begins <;> rfl, ok⟩
      rw [started, start_studio held]
      exact .begins restarts loads held starts.le
    · exact .gone (not_restarts_of_fails fails) unloaded.1

theorem stop_studio (deck : StudioDeck) :
    (deck.stop Studio.device.amid).2 = deck ∨
      (deck.stop Studio.device.amid).2.engine = none := by
  unfold stop
  split
  · exact .inl rfl
  · split
    · rename_i none
      exact .inr none
    · rw [Studio.amid_stop]
      exact .inr rfl

-- One case for each request. All that follows about requests is read off what they come to.
theorem serve_comes (deck : StudioDeck) (request : Request) :
    deck.Comes request (deck.serve Studio.device.amid request) := by
  cases request with
  | poll =>
    unfold serve poll
    dsimp only
    split
    · rename_i e playing held
      split
      · exact .gone not_restarts_poll (reset_unloaded _ _).1
      · rw [Studio.amid_duration, Studio.amid_ended, Studio.amid_position]
        exact .looks playing held
    · exact .same not_restarts_poll
    · exact .same not_restarts_poll
  | operate tree operation =>
    cases operation with
    | play source => exact Begins.comes (.play source)
    | playFrom source ask => exact Begins.comes (.playFrom source ask)
    | pause =>
      unfold serve operate
      dsimp only
      by_cases plays : deck.state.status = .playing ∧ deck.engine.isSome
      · obtain ⟨playing, held⟩ := plays
        obtain ⟨i, held⟩ := Option.isSome_iff_exists.1 held
        obtain ⟨positionMs, paused⟩ := pause_studio playing held
        rw [paused]
        exact .pauses playing held
      · rw [pause_refused _ plays]
        exact .same (not_restarts_of_halts rfl)
    | resume source =>
      by_cases goesOn : deck.state.status = .paused ∧ deck.engine.isSome
      · obtain ⟨paused, held⟩ := goesOn
        obtain ⟨i, held⟩ := Option.isSome_iff_exists.1 held
        have resumed : deck.resume Studio.device.amid tree source = _ :=
          resume_studio source paused held
        have started : deck.Restarts (.operate tree (.resume source)) :=
          ⟨_, _, rfl, rfl, congrArg Prod.fst resumed⟩
        unfold serve operate
        dsimp only
        rw [resumed]
        exact .resumes started paused held
      · exact Begins.comes (.resume source goesOn)
    | stop =>
      unfold serve operate
      dsimp only
      have halts : ¬ deck.Restarts (.operate tree .stop) := not_restarts_of_halts rfl
      rcases deck.stop_studio with same | unheld
      · rw [same]
        exact .same halts
      · exact .gone halts unheld
    | reset => exact .gone (not_restarts_of_halts rfl) (reset_unloaded _ _).1

end Requests

section Held

structure Persists (P : Status → Player → Prop) : Prop where
  steady : ∀ status, Player.Steady (P status)
  looks : ∀ status now p, P status p → P status (p.tick now)

structure Suits (P : Status → Player → Prop) (i : Nat) (deck : StudioDeck) (request : Request) :
    Prop where
  pauses : ∀ tree, request = .operate tree .pause → deck.state.status = .playing →
    ∀ p, (next deck.world).1.players[i]? = some p → P .playing p →
      P .paused (p.pause (next deck.world).1.now)
  resumes : deck.Restarts request → deck.state.status = .paused →
    ∀ p, (next deck.world).1.players[i]? = some p → P .paused p →
      P .playing (p.play (next deck.world).1.now)

variable {request : Request} {after : StudioDeck} {P : Status → Player → Prop}

theorem Comes.held_before (comes : deck.Comes request after) (still : after.engine = some i)
    (unstarted : ¬ deck.Restarts request) : deck.engine = some i := by
  cases comes with
  | same => exact still
  | gone _ unheld =>
    rw [unheld] at still
    cases still
  | looks => exact still
  | pauses => exact still
  | resumes started => exact absurd started unstarted
  | begins started => exact absurd started unstarted

theorem Comes.shows (comes : deck.Comes request after) (held : deck.engine = some i)
    (still : after.engine = some i) (persists : Persists P) (suits : deck.Suits P i request)
    (shows : Shows deck.world i (P deck.state.status)) :
    Shows after.world i (P after.state.status) := by
  have steady := persists.steady
  cases comes with
  | same => exact shows
  | gone unstarted unheld =>
    rw [unheld] at still
    cases still
  | looks playing here =>
    obtain rfl := Option.some.inj (held.symm.trans here)
    have looked := shows.moved (steady _) .look fun p _ => persists.looks _ _ p
    exact (looked.next (steady _)).next (steady _)
  | @pauses tree j positionMs playing here =>
    obtain rfl := Option.some.inj (held.symm.trans here)
    rw [playing] at shows
    have paused := shows.moved (steady _) .pause (suits.pauses tree rfl playing)
    exact paused.moved (steady _) .look fun p _ => persists.looks _ _ p
  | resumes started paused here =>
    obtain rfl := Option.some.inj (held.symm.trans here)
    rw [paused] at shows
    exact shows.moved (steady _) .play (suits.resumes started paused)
  | @begins tree operation path loaded j ms started loads here within =>
    -- The player that was started is a later one.
    obtain rfl := Option.some.inj (here.symm.trans still)
    have fresh := load_fresh shows.interludes loads here
    obtain ⟨p, present, -⟩ := shows.here
    rw [fresh] at present
    cases present

-- By induction on the requests, each of which leaves the player held.
theorem serveAll_shows (persists : Persists P) {requests : List Request}
    (held : ∀ part, part <+: requests → (deck.serveAll Studio.device.amid part).engine = some i)
    (suits : ∀ part request, part ++ [request] <+: requests →
      (deck.serveAll Studio.device.amid part).Suits P i request)
    (shows : Shows deck.world i (P deck.state.status)) :
    let after := deck.serveAll Studio.device.amid requests
    Shows after.world i (P after.state.status) := by
  induction requests generalizing deck with
  | nil => exact shows
  | cons request rest ih =>
    have first : [request] <+: request :: rest := List.prefix_append [request] rest
    refine ih (fun part before => held (request :: part) ?_)
      (fun part later before => suits (request :: part) later ?_) ?_
    · exact List.cons_prefix_cons.2 ⟨rfl, before⟩
    · exact List.cons_prefix_cons.2 ⟨rfl, before⟩
    · exact (deck.serve_comes request).shows (held [] List.nil_prefix) (held [request] first)
        persists (suits [] request first) shows

end Held

section Calm

theorem calm_afterStep {α : Type} {course : Studio.Course} (call : Studio → α × Studio)
    (calm : ∀ step ∈ course.2, Interlude step) :
    ∀ step ∈ (Device.afterStep call course).2.2, Interlude step := by
  rw [Device.afterStep_eq]
  exact Studio.interludes_next calm

theorem calm_keeps :
    Studio.device.amid.Keeps fun course _ _ => ∀ step ∈ course.2, Interlude step where
  allows := id
  unloaded := id
  load _ _ := calm_afterStep _
  play _ _ := calm_afterStep _
  pause _ _ := calm_afterStep _
  stop _ _ := calm_afterStep _
  seek _ _ _ := calm_afterStep _
  position _ _ _ := calm_afterStep _
  duration _ _ _ := calm_afterStep _
  ended _ _ := calm_afterStep _

theorem serveAll_calm (calm : deck.Calm) (requests : List Request) :
    (deck.serveAll Studio.device.amid requests).Calm :=
  serveAll_kept calm_keeps calm requests

end Calm

end Deck

end ScoreDesk.Transport
