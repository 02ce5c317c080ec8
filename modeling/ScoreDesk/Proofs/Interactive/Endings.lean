import Mathlib
import ScoreDesk.Proofs.Interactive.Turns
import ScoreDesk.Proofs.Transport.EngineHeld
import ScoreDesk.Proofs.Transport.Playthrough
import ScoreDesk.Proofs.Transport.Standstill

namespace ScoreDesk.Transport

variable {World Engine : Type}

def Device.AlwaysStops (d : Device World Engine) : Prop :=
  ∀ e world, (d.stop e world).1 = .ok ()

variable {d : Device World Engine} {tree : FileTree}

theorem Device.AlwaysStops.not_failsToStop (stops : d.AlwaysStops) (deck : Deck World Engine)
    (request : Request) : ¬ request.FailsToStop d deck := by
  unfold Request.FailsToStop
  split
  · rintro ⟨e, x, -, fails⟩
    rw [stops] at fails
    cases fails
  · exact id

namespace Deck

variable {deck other : Deck World Engine}

def Sound (deck : Deck World Engine) : Prop :=
  deck.Unloaded ∨ deck.Loaded

theorem Sound.coherent (sound : deck.Sound) : deck.Coherent :=
  sound.elim Unloaded.coherent Loaded.coherent

theorem Same.unloaded (same : deck.Same other) (unloaded : deck.Unloaded) : other.Unloaded :=
  ⟨same.1.trans unloaded.1, same.2.trans unloaded.2⟩

theorem Same.plays_iff (same : deck.Same other) : other.Plays ↔ deck.Plays := by
  unfold Plays
  rw [same.1, same.2]

theorem Same.sound (same : deck.Same other) (sound : deck.Sound) : other.Sound := by
  refine sound.imp same.unloaded fun loaded => ?_
  unfold Loaded
  rwa [same.1, same.2]

theorem Sound.serve (stops : d.AlwaysStops) (sound : deck.Sound) (request : Request) :
    (deck.serve d request).Sound := by
  rcases serve_cases d sound.coherent request with ⟨same, -⟩ | ⟨settled, -⟩ | ⟨-, fails⟩
  · rwa [same]
  · exact settled.symm
  · exact absurd fails (stops.not_failsToStop deck request)

theorem stop_ok (stops : d.AlwaysStops) (active : deck.state.status ≠ .idle) :
    (deck.stop d).1 = .ok () := by
  unfold stop
  split
  · rename_i idle
    exact absurd idle active
  · split
    · rfl
    · rename_i e held
      have stopped := stops e deck.world
      generalize d.stop e deck.world = outcome at stopped ⊢
      rcases outcome with ⟨x | _, world⟩
      · cases stopped
      · rfl

theorem Sound.stop (stops : d.AlwaysStops) (sound : deck.Sound) : (deck.stop d).2.Unloaded := by
  by_cases idle : deck.state.status = .idle
  · rw [stop_refused idle]
    exact sound.coherent idle
  · exact deck.stop_unloaded d (stop_ok stops idle)

theorem unloaded_of_ended (d : Device World Engine) (deck : Deck World Engine)
    (ended : (deck.poll d).1 = .ended) : (deck.poll d).2.Unloaded := by
  revert ended
  unfold poll
  split
  · dsimp only
    split
    · exact fun _ => reset_unloaded d _
    · exact nofun
  · exact nofun
  · exact nofun

theorem Clears.starts {operation : Operation} {x : TransportError}
    (clears : deck.Clears d tree operation x) : operation.starts = true := by
  have begun {source : Path} {ask : Option (String → Option String)}
      (begins : deck.Begins operation source ask) : operation.starts = true := by
    cases begins <;> rfl
  cases clears with
  | loadFails begins => exact begun begins
  | promptCancelled cues | startRejected cues | playFails cues | seekFails cues =>
    obtain ⟨_, _, begins, -⟩ := cues
    exact begun begins

theorem same_or_unloaded_of_fails (stops : d.AlwaysStops) {operation : Operation}
    {x : TransportError} (quiet : operation.starts = true → deck.state.status ≠ .playing)
    (fails : (deck.operate d tree operation).1 = .error x) :
    deck.Same (deck.operate d tree operation).2 ∨
      deck.state.status ≠ .playing ∧ (deck.operate d tree operation).2.Unloaded := by
  by_cases stop : operation = .stop
  · subst stop
    by_cases idle : deck.state.status = .idle
    · have refused : deck.operate d tree .stop = _ := stop_refused idle
      rw [refused]
      exact .inl ⟨rfl, rfl⟩
    · have stopped : (deck.operate d tree .stop).1 = .ok () := stop_ok stops idle
      rw [fails] at stopped
      cases stopped
  · rcases fails_cases stop fails with spares | clears
    · obtain ⟨world, outcome⟩ := spares.outcome
      rw [outcome]
      exact .inl ⟨rfl, rfl⟩
    · exact .inr ⟨quiet clears.starts, clears.unloaded⟩

end Deck

namespace Monitor

variable {m : Monitor World Engine}

theorem sound_look (stops : d.AlwaysStops) (sound : m.deck.Sound) (i : Nat) :
    (m.look d i).deck.Sound := by
  rcases m.look_cases d i with ⟨-, polled, -⟩ | ⟨-, same⟩
  · rw [polled]
    exact sound.serve stops .poll
  · rwa [same]

theorem sound_perform (stops : d.AlwaysStops) (sound : m.deck.Sound) (operation : Operation) :
    (m.perform d tree operation).2.deck.Sound := by
  rw [perform_deck]
  exact sound.serve stops (.operate tree operation)

end Monitor

namespace Usage

theorem sound_turn (stops : d.AlwaysStops) {u : Usage World Engine} (sound : u.monitor.deck.Sound)
    (t : Turn World) : (u.turn d t).monitor.deck.Sound := by
  cases t with
  | ask operation =>
    unfold turn
    dsimp only
    split
    · exact sound
    · dsimp only
      rwa [Monitor.prepare_deck]
  | serve tree =>
    unfold turn serve
    dsimp only
    split
    · exact sound
    · exact Monitor.sound_perform stops sound _
  | look i => exact Monitor.sound_look stops sound i
  | wake i => exact sound
  | notice i => exact sound
  | wait ms => exact sound
  | drift change => exact Deck.Same.sound ⟨rfl, rfl⟩ sound

theorem sound_run (stops : d.AlwaysStops) {u : Usage World Engine} (sound : u.monitor.deck.Sound)
    (turns : List (Turn World)) : (u.run d turns).monitor.deck.Sound := by
  induction turns generalizing u with
  | nil => exact sound
  | cons t rest ih => exact ih (sound_turn stops sound t)

end Usage

end ScoreDesk.Transport

namespace ScoreDesk.Interactive

open Transport

variable {World Engine : Type}

def Command.ComesTo (deck : Deck World Engine) : Command → Operation → Prop
  | .toggle, .pause => True
  | .toggle, .resume _ => deck.state.status ≠ .playing
  | .stop, .stop => True
  | .quit, .stop => True
  | _, _ => False

namespace Console

variable {d : Device World Engine} {c : Console World Engine}

theorem comesTo_of_operation {deck : Deck World Engine} {source : Path} {command : Command}
    {operation : Operation} (found : operation? source deck.state.status command = some operation) :
    command.ComesTo deck operation := by
  unfold operation? at found
  cases command with
  | toggle =>
    dsimp only at found
    split at found
    · cases found
      trivial
    · rename_i other
      cases found
      exact other
  | stop =>
    cases found
    trivial
  | quit =>
    dsimp only at found
    split at found
    · cases found
    · cases found
      trivial

/-- What holds of every console among its pollers. An end that was not read yet is the end of what
    the deck played, unless the deck plays again. -/
structure Orderly (c : Console World Engine) : Prop where
  sound : c.monitor.deck.Sound
  fits : ∀ command operation, c.stage = .acting command operation →
    command.ComesTo c.monitor.deck operation
  behind : c.seen ≤ c.monitor.publications
  stale : c.hasNews = true → c.monitor.published = .ended →
    c.monitor.deck.Unloaded ∨ c.monitor.deck.Plays

theorem Orderly.quiet (orderly : c.Orderly) {operation : Operation} (asks : c.asks operation)
    (starts : operation.starts = true) : c.monitor.deck.state.status ≠ .playing := by
  obtain ⟨command, acting⟩ := asks
  have fits := orderly.fits command operation acting
  cases command <;> cases operation <;> first | exact fits | exact fits.elim | cases starts

theorem deck_cases (d : Device World Engine) (c : Console World Engine) (t : Turn World) :
    (∃ tree operation, t = .act tree ∧ c.asks operation ∧
        (c.turn d t).monitor = (c.monitor.perform d tree operation).2) ∨
      (∃ i, t = .look i ∧ c.monitor.Awaits i) ∨
      (¬ c.Starts d t ∧ ¬ c.Publishes d t) ∧ c.monitor.deck.Same (c.turn d t).monitor.deck := by
  have of_same {t : Turn World} (same : (c.turn d t).monitor.deck = c.monitor.deck)
      (still : ¬ c.Starts d t) (silent : ¬ c.Publishes d t) :
      (¬ c.Starts d t ∧ ¬ c.Publishes d t) ∧
        c.monitor.deck.Same (c.turn d t).monitor.deck := by
    rw [same]
    exact ⟨⟨still, silent⟩, rfl, rfl⟩
  cases t with
  | hear line =>
    exact .inr (.inr (of_same (congrArg (·.deck) (turn_hear_monitor d c line)) id id))
  | close => exact .inr (.inr (of_same (congrArg (·.deck) (turn_close_monitor d c)) id id))
  | judge =>
    refine .inr (.inr (of_same ?_ id id))
    change c.judge.monitor.deck = _
    rcases c.judge_monitor with ⟨operation, prepared⟩ | same
    · rw [prepared]
      exact c.monitor.prepare_deck operation
    · rw [same]
  | act tree =>
    rcases c.act_cases d tree with ⟨command, operation, acting, left, -⟩ | ⟨idle, same⟩
    · exact .inl ⟨tree, operation, rfl, ⟨command, acting⟩, left⟩
    · refine .inr (.inr (of_same (congrArg (·.monitor.deck) same) ?_ ?_))
      · rintro ⟨operation, asks, -⟩
        exact idle operation asks
      · rintro ⟨operation, asks, -⟩
        exact idle operation asks
  | read => exact .inr (.inr (of_same (congrArg (·.deck) c.look_monitor) id id))
  | look i =>
    by_cases awaits : c.monitor.Awaits i
    · exact .inr (.inl ⟨i, rfl, awaits⟩)
    · refine .inr (.inr (of_same ?_ id awaits))
      exact congrArg (·.deck) (Monitor.look_of_not_awaits d awaits)
  | wake i => exact .inr (.inr (of_same rfl id id))
  | notice i => exact .inr (.inr (of_same rfl id id))
  | wait ms => exact .inr (.inr (of_same rfl id id))
  | drift change => exact .inr (.inr ⟨⟨id, id⟩, rfl, rfl⟩)

theorem sound_turn (stops : d.AlwaysStops) (sound : c.monitor.deck.Sound) (t : Turn World) :
    (c.turn d t).monitor.deck.Sound := by
  rcases c.deck_cases d t with ⟨tree, operation, rfl, -, left⟩ | ⟨i, rfl, -⟩ | ⟨-, same⟩
  · rw [left]
    exact Monitor.sound_perform stops sound operation
  · exact Monitor.sound_look stops sound i
  · exact same.sound sound

theorem not_publishes_of_starts {t : Turn World} (starts : c.Starts d t) : ¬ c.Publishes d t := by
  cases t with
  | act tree =>
    obtain ⟨operation, asks, begins, -⟩ := starts
    rintro ⟨other, also, quiet, -⟩
    rw [asks_unique asks also, begins] at quiet
    cases quiet
  | _ => exact starts.elim

theorem not_reads_of_starts {t : Turn World} (starts : c.Starts d t) : ¬ c.Reads t := by
  cases t with
  | act tree => exact not_reads nofun
  | _ => exact starts.elim

theorem published_of_silent {t : Turn World} (silent : ¬ c.Publishes d t) :
    (c.turn d t).monitor.published = c.monitor.published := by
  rcases c.publications_turn d t with ⟨loud, -⟩ | ⟨-, -, published⟩
  · exact absurd loud silent
  · exact published

/-- What a turn does to the deck: it starts it; or it publishes, and then a deck whose end is
    published is unloaded; or it leaves the deck alone, or unloads one that did not play. -/
theorem deck_turn (stops : d.AlwaysStops) (orderly : c.Orderly) (t : Turn World) :
    c.Starts d t ∧ (c.turn d t).monitor.deck.Plays ∨
      c.Publishes d t ∧ ((c.turn d t).monitor.published = .ended →
        (c.turn d t).monitor.deck.Unloaded) ∨
      (¬ c.Starts d t ∧ ¬ c.Publishes d t) ∧
        (c.monitor.deck.Same (c.turn d t).monitor.deck ∨
          c.monitor.deck.state.status ≠ .playing ∧ (c.turn d t).monitor.deck.Unloaded) := by
  rcases c.deck_cases d t with ⟨tree, operation, rfl, asks, left⟩ | ⟨i, rfl, awaits⟩ | ⟨still, same⟩
  · obtain ⟨result, effect⟩ := c.monitor.perform_effect d tree operation
    rw [left]
    rcases effect with ⟨⟨x, fails⟩, -⟩ | ⟨ok, ⟨starts, -⟩ | ⟨rfl, after⟩ | ⟨halts, after⟩⟩
    · refine .inr (.inr ⟨⟨?_, ?_⟩, ?_⟩)
      · rintro ⟨other, also, -, ok⟩
        rw [asks_unique asks also, result, fails] at ok
        cases ok
      · rintro ⟨other, also, -, ok⟩
        rw [asks_unique asks also, result, fails] at ok
        cases ok
      · rw [Monitor.perform_deck]
        exact Deck.same_or_unloaded_of_fails stops (orderly.quiet asks) fails
    · obtain ⟨deck, plays, started⟩ := Monitor.perform_starts d tree starts (result.trans ok)
      refine .inl ⟨⟨operation, asks, starts, result.trans ok⟩, ?_⟩
      rw [started]
      exact (congrArg Deck.Plays (Monitor.cancelPolling_deck _)).mpr plays
    · refine .inr (.inl ⟨⟨.pause, asks, rfl, result.trans ok⟩, ?_⟩)
      rw [after]
      exact nofun
    · have quiet : operation.starts = false := by rcases halts with rfl | rfl <;> rfl
      refine .inr (.inl ⟨⟨operation, asks, quiet, result.trans ok⟩, ?_⟩)
      rw [after]
      exact nofun
  · refine .inr (.inl ⟨awaits, ?_⟩)
    change (c.monitor.look d i).published = .ended → (c.monitor.look d i).deck.Unloaded
    rw [Monitor.look_of_awaits d awaits]
    exact c.monitor.deck.unloaded_of_ended d
  · exact .inr (.inr ⟨still, .inl same⟩)

theorem acting_turn {t : Turn World} {command : Command} {operation : Operation}
    (acting : (c.turn d t).stage = .acting command operation) :
    c.stage = .acting command operation ∧ (∀ tree, t ≠ .act tree) ∨
      command.ComesTo (c.turn d t).monitor.deck operation := by
  cases t with
  | hear line =>
    refine .inl ⟨?_, nofun⟩
    unfold turn at acting
    dsimp only at acting
    split at acting
    · rcases (c.hear_cases line).2.2 with same | ⟨command, deciding⟩
      · exact same.symm.trans acting
      · rw [deciding] at acting
        cases acting
    · exact acting
  | close => exact .inl ⟨c.stopReading_stage.symm.trans acting, nofun⟩
  | judge =>
    change c.judge.stage = _ at acting
    rcases c.judge_cases with ⟨command', operation', -, found, judged⟩ | ⟨command', -, -, judged⟩ |
      ⟨-, judged⟩
    · rw [judged] at acting
      cases acting
      refine .inr ?_
      change command.ComesTo c.judge.monitor.deck operation
      rw [judged]
      dsimp only
      rw [Monitor.prepare_deck]
      exact comesTo_of_operation found
    · rw [judged] at acting
      unfold settle at acting
      dsimp only at acting
      split at acting <;> cases acting
    · rw [judged] at acting
      exact .inl ⟨acting, nofun⟩
  | act tree =>
    change (c.act d tree).stage = _ at acting
    rcases c.act_cases d tree with ⟨_, _, -, -, stage, -⟩ | ⟨idle, same⟩
    · rw [stage] at acting
      split at acting <;> cases acting
    · rw [same] at acting
      exact absurd ⟨command, acting⟩ (idle operation)
  | read =>
    change c.look.stage = _ at acting
    rcases c.look_cases with ⟨-, -, -, -, stage⟩ | ⟨-, same⟩
    · rw [stage] at acting
      split at acting <;> cases acting
    · rw [same] at acting
      exact .inl ⟨acting, nofun⟩
  | _ => exact .inl ⟨acting, nofun⟩

theorem playing_of_turn {t : Turn World} (other : ∀ tree, t ≠ .act tree)
    (playing : (c.turn d t).monitor.deck.state.status = .playing) :
    c.monitor.deck.state.status = .playing := by
  rcases c.deck_cases d t with ⟨tree, _, rfl, -⟩ | ⟨i, rfl, awaits⟩ | ⟨-, same⟩
  · exact absurd rfl (other tree)
  · change (c.monitor.look d i).deck.state.status = .playing at playing
    rw [Monitor.look_of_awaits d awaits] at playing
    exact (Deck.playing_of_poll d c.monitor.deck playing).1
  · rwa [same.2] at playing

theorem Orderly.turn (stops : d.AlwaysStops) (orderly : c.Orderly) (t : Turn World) :
    (c.turn d t).Orderly where
  sound := sound_turn stops orderly.sound t
  fits command operation acting := by
    rcases acting_turn acting with ⟨before, other⟩ | now
    · have fits := orderly.fits command operation before
      cases command <;> cases operation <;> try exact fits
      exact fun playing => fits (playing_of_turn other playing)
    · exact now
  behind := seen_le_turn d t orderly.behind
  stale news ended := by
    rcases deck_turn stops orderly t with ⟨-, plays⟩ | ⟨-, unloaded⟩ |
      ⟨⟨-, silent⟩, same | ⟨-, unloaded⟩⟩
    · exact .inr plays
    · exact .inl (unloaded ended)
    · have before := (hasNews_turn d t orderly.behind).1 news
      rw [published_of_silent silent] at ended
      exact (orderly.stale (before.resolve_left silent).1 ended).imp same.unloaded same.plays_iff.2
    · exact .inl unloaded

theorem Orderly.run (stops : d.AlwaysStops) (orderly : c.Orderly) (turns : List (Turn World)) :
    (c.run d turns).Orderly := by
  induction turns generalizing c with
  | nil => exact orderly
  | cons t rest ih => exact ih (orderly.turn stops t)

/-- A playback is started while the end of another one is still to be read. -/
def Restarts (d : Device World Engine) (c : Console World Engine) (t : Turn World) : Prop :=
  c.Starts d t ∧ c.hasNews = true ∧ c.monitor.published = .ended

/-- The deck plays, and the next news to be read is an end. -/
def PlaysPastEnd (c : Console World Engine) : Prop :=
  c.hasNews = true ∧ c.monitor.published = .ended ∧ c.monitor.deck.Plays

theorem playsPastEnd_turn (stops : d.AlwaysStops) (orderly : c.Orderly) (t : Turn World) :
    (c.turn d t).PlaysPastEnd ↔
      c.Restarts d t ∨ c.PlaysPastEnd ∧ ¬ c.Publishes d t ∧ ¬ c.Reads t := by
  have news := hasNews_turn d t orderly.behind
  rcases deck_turn stops orderly t with ⟨starts, plays⟩ | ⟨loud, unloaded⟩ |
    ⟨⟨still, silent⟩, kept⟩
  · have silent := not_publishes_of_starts starts
    have published := published_of_silent silent
    constructor
    · rintro ⟨now, ended, -⟩
      have before := (news.1 now).resolve_left silent
      exact .inl ⟨starts, before.1, published.symm.trans ended⟩
    · intro either
      have before : c.hasNews = true ∧ c.monitor.published = .ended := by
        rcases either with ⟨-, before⟩ | ⟨⟨now, ended, -⟩, -⟩
        · exact before
        · exact ⟨now, ended⟩
      have unread : ¬ c.Reads t := not_reads_of_starts starts
      exact ⟨news.2 (.inr ⟨before.1, unread⟩), published.trans before.2, plays⟩
  · constructor
    · rintro ⟨-, ended, plays⟩
      exact absurd plays (unloaded ended).not_plays
    · rintro (⟨starts, -⟩ | ⟨-, silent, -⟩)
      · exact absurd loud (not_publishes_of_starts starts)
      · exact absurd loud silent
  · have published := published_of_silent silent
    have plays_iff : (c.turn d t).monitor.deck.Plays ↔ c.monitor.deck.Plays := by
      rcases kept with same | ⟨quiet, unloaded⟩
      · exact same.plays_iff
      · exact ⟨fun plays => absurd plays unloaded.not_plays, fun plays => absurd plays.2 quiet⟩
    constructor
    · rintro ⟨now, ended, plays⟩
      have before := (news.1 now).resolve_left silent
      exact .inr ⟨⟨before.1, published.symm.trans ended, plays_iff.1 plays⟩, silent, before.2⟩
    · rintro (⟨starts, -⟩ | ⟨⟨now, ended, plays⟩, -, unread⟩)
      · exact absurd starts still
      · exact ⟨news.2 (.inr ⟨now, unread⟩), published.trans ended, plays_iff.2 plays⟩

theorem playsPastEnd_run_iff (stops : d.AlwaysStops) (orderly : c.Orderly)
    (caught : c.hasNews = false) (turns : List (Turn World)) : (c.run d turns).PlaysPastEnd ↔
      ∃ (before : List (Turn World)) (t : Turn World) (after : List (Turn World)),
        turns = before ++ t :: after ∧ (c.run d before).Restarts d t ∧
        Throughout (turn d) ((c.run d before).turn d t) after
          fun c t => ¬ c.Publishes d t ∧ ¬ c.Reads t := by
  have causes := @foldl_iff_kept _ _ (turn d) c PlaysPastEnd (fun c t => c.Restarts d t)
    (fun c t => ¬ c.Publishes d t ∧ ¬ c.Reads t) turns
    fun before t _ => playsPastEnd_turn stops (orderly.run stops before) t
  refine causes.trans (or_iff_left ?_)
  rintro ⟨⟨news, -⟩, -⟩
  rw [caught] at news
  cases news

def Returns (d : Device World Engine) (c : Console World Engine) (t : Turn World) (why : End) :
    Prop :=
  c.isOver = false ∧ (c.turn d t).stage = .ended why

/-- A console ends by a command to quit, and then the deck is unloaded, or when it reads of an
    end. -/
theorem Orderly.returns (stops : d.AlwaysStops) (orderly : c.Orderly) {t : Turn World} {why : End}
    (returns : c.Returns d t why) :
    why = .quit ∧ (c.turn d t).monitor.deck.Unloaded ∨
      why = .finished ∧ (c.hasNews = true ∧ c.monitor.published = .ended) ∧
        (c.turn d t).monitor = c.monitor := by
  obtain ⟨runs, ended⟩ := returns
  have going (why : End) : c.stage ≠ .ended why := by
    intro already
    rw [isOver, already] at runs
    cases runs
  cases t with
  | hear line =>
    unfold Console.turn at ended
    dsimp only at ended
    split at ended
    · rcases (c.hear_cases line).2.2 with same | ⟨command, deciding⟩
      · exact absurd (same.symm.trans ended) (going why)
      · rw [deciding] at ended
        cases ended
    · exact absurd ended (going why)
  | close => exact absurd (c.stopReading_stage.symm.trans ended) (going why)
  | judge =>
    change c.judge.stage = _ at ended
    rcases c.judge_cases with ⟨_, _, -, -, judged⟩ | ⟨command, -, none, judged⟩ | ⟨-, judged⟩
    · rw [judged] at ended
      cases ended
    · have settled : (if command = .quit then Stage.ended .quit else .waiting) = .ended why := by
        rw [judged] at ended
        exact ended
      split at settled
      · rename_i quits
        subst quits
        cases settled
        have idle : c.monitor.deck.state.status = .idle := by simpa [operation?] using none
        refine .inl ⟨rfl, ?_⟩
        change c.judge.monitor.deck.Unloaded
        rw [judged]
        exact orderly.sound.coherent idle
      · cases settled
    · rw [judged] at ended
      exact absurd ended (going why)
  | act tree =>
    change (c.act d tree).stage = _ at ended
    rcases c.act_cases d tree with ⟨command, operation, acting, left, stage, -⟩ | ⟨-, same⟩
    · rw [stage] at ended
      split at ended
      · rename_i quits
        subst quits
        cases ended
        have stopped : operation = .stop := by
          have fits := orderly.fits .quit operation acting
          cases operation <;> first | rfl | exact fits.elim
        subst stopped
        refine .inl ⟨rfl, ?_⟩
        change (c.act d tree).monitor.deck.Unloaded
        rw [left, Monitor.perform_deck]
        exact orderly.sound.stop stops
      · cases ended
    · rw [same] at ended
      exact absurd ended (going why)
  | read =>
    change c.look.stage = _ at ended
    rcases c.look_cases with ⟨-, news, same, -, stage⟩ | ⟨-, same⟩
    · rw [stage] at ended
      split at ended
      · rename_i published
        cases ended
        exact .inr ⟨rfl, ⟨news, published⟩, same⟩
      · cases ended
    · rw [same] at ended
      exact absurd ended (going why)
  | _ => exact absurd ended (going why)

/-- A console that ends leaves the deck unloaded, unless it reads of an end that a command has
    started a playback after; then that playback goes on. -/
theorem returns_unloaded_iff {d : Device World Engine} (stops : d.AlwaysStops) (world : World)
    (periodMs : Nat) (history : List (Transport.Turn World)) (source : Path)
    (turns : List (Turn World)) (t : Turn World) (why : End) :
    let used : Usage World Engine := Usage.run d { monitor := .start world periodMs } history
    let opened := start used.monitor source
    let c := opened.run d turns
    c.Returns d t why →
      ((c.turn d t).monitor.deck.Unloaded ∨ (c.turn d t).monitor.deck.Plays) ∧
      ((c.turn d t).monitor.deck.Unloaded ↔ ¬ (why = .finished ∧
        ∃ (before : List (Turn World)) (restart : Turn World) (after : List (Turn World)),
          turns = before ++ restart :: after ∧ (opened.run d before).Restarts d restart ∧
          Throughout (turn d) ((opened.run d before).turn d restart) after
            fun c t => ¬ c.Publishes d t ∧ ¬ c.Reads t)) := by
  intro used opened c returns
  have caught : opened.hasNews = false := by simp [opened, hasNews, start]
  have orderly : opened.Orderly := by
    refine ⟨Usage.sound_run stops (.inl ⟨rfl, rfl⟩) history, ?_, le_rfl, ?_⟩
    · intro command operation acting
      cases acting
    · intro news
      rw [caught] at news
      cases news
  rcases (orderly.run stops turns).returns stops returns with
    ⟨rfl, unloaded⟩ | ⟨rfl, news, same⟩
  · refine ⟨.inl unloaded, fun _ => ?_, fun _ => unloaded⟩
    rintro ⟨finished, -⟩
    cases finished
  · have left := (orderly.run stops turns).stale news.1 news.2
    rw [same, ← playsPastEnd_run_iff stops orderly caught]
    refine ⟨left, fun unloaded => ?_, fun none => left.resolve_right fun plays => ?_⟩
    · rintro ⟨-, -, -, plays⟩
      exact unloaded.not_plays plays
    · exact none ⟨rfl, news.1, news.2, plays⟩

theorem quit_leaves_unloaded :
    let used := Usage.run Studio.device { monitor := .start .ofNote 100 }
      [.ask (.play ⟨"score.ly"⟩), .serve noteTree]
    let c := (start used.monitor ⟨"score.ly"⟩).run Studio.device [.hear "q", .judge]
    c.monitor.deck.Plays ∧ c.Returns Studio.device (.act noteTree) .quit ∧
      (c.turn Studio.device (.act noteTree)).monitor.deck.Unloaded := by
  intro used c
  have plays : c.monitor.deck.engine = some 0 ∧ c.monitor.deck.state.status = .playing := by
    decide +kernel
  have returns : c.Returns Studio.device (.act noteTree) .quit := by
    unfold Returns
    decide +kernel
  have stops : Studio.device.AlwaysStops := fun _ _ => rfl
  have unloaded_iff := returns_unloaded_iff stops .ofNote 100
    [.ask (.play ⟨"score.ly"⟩), .serve noteTree] ⟨"score.ly"⟩ [.hear "q", .judge] (.act noteTree)
    .quit returns
  refine ⟨Deck.plays_of_held plays.1 plays.2, returns, unloaded_iff.2.2 ?_⟩
  rintro ⟨finished, -⟩
  cases finished

/-- The score is played again after its end and before that end is read: the console ends, and the
    score plays on. -/
theorem restarted_score_plays_on :
    let used := Usage.run Studio.device { monitor := .start .ofNote 100 }
      [.ask (.play ⟨"score.ly"⟩), .serve noteTree]
    let turns : List (Turn Studio) := [.wake 0, .drift fun s => s.work 0 3000000000,
      .wait 3000, .wake 0, .look 0, .hear "p", .judge, .act noteTree]
    let c := (start used.monitor ⟨"score.ly"⟩).run Studio.device turns
    c.Returns Studio.device .read .finished ∧
      (c.turn Studio.device .read).monitor.deck.state.status = .playing ∧
      ¬ (c.turn Studio.device .read).monitor.deck.Unloaded := by
  intro used turns c
  have plays : (c.turn Studio.device .read).monitor.deck.engine = some 1 ∧
      (c.turn Studio.device .read).monitor.deck.state.status = .playing := by
    decide +kernel
  have returns : c.Returns Studio.device .read .finished := by
    unfold Returns
    decide +kernel
  refine ⟨returns, plays.2, fun unloaded => ?_⟩
  exact unloaded.not_plays (Deck.plays_of_held plays.1 plays.2)

end Console

end ScoreDesk.Interactive
