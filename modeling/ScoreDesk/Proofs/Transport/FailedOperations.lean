import Mathlib
import ScoreDesk.Proofs.Transport.DeckOperations
import ScoreDesk.Transport.Script

namespace ScoreDesk.Transport

variable {World Engine : Type}

theorem renditionOf_error {tree : FileTree} {source : Path} {x : TransportError}
    (missing : renditionOf tree source = .error x) : x = .midiFileNotFound source := by
  unfold renditionOf at missing
  dsimp only at missing
  split at missing
  · cases missing
  · split at missing
    · exact (Except.error.inj missing).symm
    · split at missing
      · cases missing
      · exact (Except.error.inj missing).symm

namespace Deck

/-- An operation that plays a score from a start, and the question for that start, if it asks one.
    Resuming a paused file that is held begins nothing. -/
inductive Begins (deck : Deck World Engine) :
    Operation → Path → Option (String → Option String) → Prop
  | play (source : Path) : Begins deck (.play source) source none
  | playFrom (source : Path) (ask : String → Option String) :
      Begins deck (.playFrom source ask) source (some ask)
  | resume (source : Path) (other : ¬ (deck.state.status = .paused ∧ deck.engine.isSome)) :
      Begins deck (.resume source) source none

def StartsAt (durationMs : Nat) (ms : Nat) : Option (String → Option String) → Prop
  | none => ms = 0
  | some ask =>
    ∃ answer, ask (display durationMs) = some answer ∧ startTime durationMs answer = .ok ms

def Cues (d : Device World Engine) (tree : FileTree) (deck : Deck World Engine)
    (operation : Operation) (ask : Option (String → Option String)) (loaded : Deck World Engine) :
    Prop :=
  ∃ source path, deck.Begins operation source ask ∧ renditionOf tree source = .ok path ∧
    deck.load d path = (.ok (), loaded)

/-- Failures that are noticed before anything has changed. -/
inductive Spares (d : Device World Engine) (tree : FileTree) (deck : Deck World Engine) :
    Operation → TransportError → Prop
  | noFile {operation : Operation} {source : Path} {ask : Option (String → Option String)}
      (begins : deck.Begins operation source ask)
      (missing : renditionOf tree source = .error (.midiFileNotFound source)) :
      Spares d tree deck operation (.midiFileNotFound source)
  | pauseRefused (other : ¬ (deck.state.status = .playing ∧ deck.engine.isSome)) :
      Spares d tree deck .pause (.invalidTransition .pause deck.state.status)
  | pauseFails {e : Engine} {x : TransportError} (playing : deck.state.status = .playing)
      (held : deck.engine = some e) (fails : (d.pause e deck.world).1 = .error x) :
      Spares d tree deck .pause x
  | resumeFails {source : Path} {e : Engine} {x : TransportError}
      (paused : deck.state.status = .paused) (held : deck.engine = some e)
      (fails : (d.play e deck.world).1 = .error x) :
      Spares d tree deck (.resume source) x

/-- Failures after the file that was loaded before has been given up. -/
inductive Clears (d : Device World Engine) (tree : FileTree) (deck : Deck World Engine)
    (operation : Operation) : TransportError → Prop
  | loadFails {source path : Path} {ask : Option (String → Option String)} {x : TransportError}
      (begins : deck.Begins operation source ask) (found : renditionOf tree source = .ok path)
      (fails : (d.load path (deck.reset d).world).1 = .error x) :
      Clears d tree deck operation x
  | promptCancelled {ask : String → Option String} {loaded : Deck World Engine}
      (cues : deck.Cues d tree operation (some ask) loaded)
      (cancelled : ask (display loaded.state.durationMs) = none) :
      Clears d tree deck operation .promptCancelled
  | startRejected {ask : String → Option String} {loaded : Deck World Engine} {answer : String}
      {x : TransportError} (cues : deck.Cues d tree operation (some ask) loaded)
      (given : ask (display loaded.state.durationMs) = some answer)
      (rejected : startTime loaded.state.durationMs answer = .error x) :
      Clears d tree deck operation x
  | playFails {ask : Option (String → Option String)} {loaded : Deck World Engine} {e : Engine}
      {ms : Nat} {x : TransportError} (cues : deck.Cues d tree operation ask loaded)
      (starts : StartsAt loaded.state.durationMs ms ask) (held : loaded.engine = some e)
      (fails : (d.play e loaded.world).1 = .error x) :
      Clears d tree deck operation x
  | seekFails {ask : Option (String → Option String)} {loaded : Deck World Engine} {e : Engine}
      {ms : Nat} {x : TransportError} (cues : deck.Cues d tree operation ask loaded)
      (starts : StartsAt loaded.state.durationMs ms ask) (held : loaded.engine = some e)
      (plays : (d.play e loaded.world).1 = .ok ()) (later : ms ≠ 0)
      (fails : (d.seek e ms (d.play e loaded.world).2).1 = .error x) :
      Clears d tree deck operation x

variable {d : Device World Engine} {tree : FileTree} {deck : Deck World Engine}

section Launch

variable {e : Engine} {ms : Nat} {world : World} {x : TransportError}

theorem launch_play_fails (fails : (d.play e world).1 = .error x) :
    (launch d e ms world).1 = .error x := by
  unfold launch
  generalize d.play e world = played at fails ⊢
  obtain ⟨result, after⟩ := played
  obtain rfl : result = .error x := fails
  rfl

theorem launch_seek_fails (plays : (d.play e world).1 = .ok ()) (later : ms ≠ 0)
    (fails : (d.seek e ms (d.play e world).2).1 = .error x) :
    (launch d e ms world).1 = .error x := by
  unfold launch
  generalize d.play e world = played at plays fails ⊢
  obtain ⟨result, after⟩ := played
  obtain rfl : result = .ok () := plays
  simpa only [later, if_false] using fails

theorem launch_fails_cases (fails : (launch d e ms world).1 = .error x) :
    (d.play e world).1 = .error x ∨ (d.play e world).1 = .ok () ∧ ms ≠ 0 ∧
      (d.seek e ms (d.play e world).2).1 = .error x := by
  unfold launch at fails
  generalize d.play e world = played at fails ⊢
  rcases played with ⟨y | _, after⟩
  · exact .inl fails
  · by_cases beginning : ms = 0
    · simp [beginning] at fails
    · simp only [beginning, if_false] at fails
      exact .inr ⟨rfl, beginning, fails⟩

end Launch

theorem start_fails_iff {loaded : Deck World Engine} {e : Engine} (held : loaded.engine = some e)
    (ms : Nat) (x : TransportError) :
    (loaded.start d ms).1 = .error x ↔ (launch d e ms loaded.world).1 = .error x := by
  simp only [start, held]
  generalize launch d e ms loaded.world = outcome
  rcases outcome with ⟨y | _, world⟩ <;> rfl

theorem load_fails_iff (path : Path) (x : TransportError) :
    (deck.load d path).1 = .error x ↔ (d.load path (deck.reset d).world).1 = .error x := by
  simp only [load]
  generalize d.load path (deck.reset d).world = outcome
  rcases outcome with ⟨y | e, world⟩
  · simp
  · simp

def begin (d : Device World Engine) (loaded : Deck World Engine) :
    Option (String → Option String) → Result × Deck World Engine
  | none => loaded.start d 0
  | some ask => loaded.startFrom d (ask (display loaded.state.durationMs))

theorem begin_of_startsAt {loaded : Deck World Engine} {ms : Nat}
    {ask : Option (String → Option String)} (starts : StartsAt loaded.state.durationMs ms ask) :
    loaded.begin d ask = loaded.start d ms := by
  cases ask with
  | none =>
    obtain rfl : ms = 0 := starts
    rfl
  | some ask =>
    obtain ⟨answer, given, accepted⟩ := starts
    simp only [begin, given, startFrom, accepted]

theorem startTime_le {durationMs ms : Nat} {answer : String}
    (accepted : startTime durationMs answer = .ok ms) : ms ≤ durationMs := by
  unfold startTime at accepted
  dsimp only at accepted
  split at accepted
  · obtain rfl := Except.ok.inj accepted
    exact Nat.zero_le _
  · cases parsed : parseDisplay (Text.trimmed answer) with
    | error x =>
      rw [parsed] at accepted
      cases accepted
    | ok parsedMs =>
      simp only [parsed, bind, Except.bind] at accepted
      split at accepted
      · cases accepted
      · obtain rfl := Except.ok.inj accepted
        omega

theorem StartsAt.le {durationMs ms : Nat} {ask : Option (String → Option String)}
    (starts : StartsAt durationMs ms ask) : ms ≤ durationMs := by
  cases ask with
  | none =>
    obtain rfl : ms = 0 := starts
    exact Nat.zero_le _
  | some ask =>
    obtain ⟨_, _, accepted⟩ := starts
    exact startTime_le accepted

theorem engine_of_load {path : Path} {loaded : Deck World Engine}
    (loads : deck.load d path = (.ok (), loaded)) : ∃ e, loaded.engine = some e := by
  rcases deck.load_cases d path with ⟨y, failed, _⟩ | ⟨_, held⟩
  · rw [loads] at failed
    cases failed
  · rwa [loads] at held

theorem resume_begins {source : Path}
    (other : ¬ (deck.state.status = .paused ∧ deck.engine.isSome)) :
    deck.resume d tree source = deck.play d tree source := by
  unfold resume
  split
  · rename_i e paused held
    exact absurd ⟨paused, by simp [held]⟩ other
  · rfl

section Begins

variable {operation : Operation} {source : Path} {ask : Option (String → Option String)}
  {x : TransportError}

theorem Begins.missing (begins : deck.Begins operation source ask)
    (missing : renditionOf tree source = .error x) :
    deck.operate d tree operation = (.error x, deck) := by
  cases begins with
  | play => exact play_missing d deck missing
  | playFrom source ask => exact playFrom_missing d deck ask missing
  | resume source other => exact (resume_begins other).trans (play_missing d deck missing)

theorem Begins.settled (begins : deck.Begins operation source ask) {path : Path}
    (found : renditionOf tree source = .ok path) : Settled (deck.operate d tree operation) := by
  cases begins with
  | play => exact play_found d deck found
  | playFrom source ask => exact playFrom_found d deck ask found
  | resume source other =>
    have same : deck.operate d tree (.resume source) = deck.play d tree source :=
      resume_begins other
    rw [same]
    exact play_found d deck found

theorem Begins.found (begins : deck.Begins operation source ask) {path : Path}
    (found : renditionOf tree source = .ok path) :
    deck.operate d tree operation = match deck.load d path with
      | (.error x, deck) => (.error x, deck)
      | (.ok (), loaded) => loaded.begin d ask := by
  have plays : deck.play d tree source = match deck.load d path with
      | (.error x, deck) => (.error x, deck)
      | (.ok (), loaded) => loaded.begin d none := by
    unfold Deck.play
    rw [cue_found d deck found]
    rfl
  cases begins with
  | play =>
    rw [operate]
    exact plays
  | playFrom source ask =>
    rw [operate]
    unfold Deck.playFrom
    rw [cue_found d deck found]
    rfl
  | resume source other =>
    rw [operate, resume_begins other]
    exact plays

theorem Begins.succeeds (begins : deck.Begins operation source ask)
    (ok : (deck.operate d tree operation).1 = .ok ()) :
    ∃ path loaded ms, deck.load d path = (.ok (), loaded) ∧
      StartsAt loaded.state.durationMs ms ask ∧
        deck.operate d tree operation = loaded.start d ms := by
  cases found : renditionOf tree source with
  | error x =>
    rw [begins.missing found] at ok
    cases ok
  | ok path =>
    rw [begins.found found] at ok ⊢
    cases loads : deck.load d path with
    | mk result loaded =>
      rw [loads] at ok
      cases result with
      | error x => cases ok
      | ok _ =>
        have starts : ∃ ms, StartsAt loaded.state.durationMs ms ask := by
          cases ask with
          | none => exact ⟨0, rfl⟩
          | some ask =>
            cases given : ask (display loaded.state.durationMs) with
            | none =>
              simp only [begin, given, startFrom] at ok
              cases ok
            | some answer =>
              cases accepted : startTime loaded.state.durationMs answer with
              | error x =>
                simp only [begin, given, startFrom, accepted] at ok
                cases ok
              | ok ms => exact ⟨ms, answer, given, accepted⟩
        obtain ⟨ms, starts⟩ := starts
        exact ⟨path, loaded, ms, loads, starts, begin_of_startsAt starts⟩

theorem Cues.operate_eq {loaded : Deck World Engine}
    (cues : deck.Cues d tree operation ask loaded) :
    deck.operate d tree operation = loaded.begin d ask := by
  obtain ⟨source, path, begins, found, ok⟩ := cues
  rw [begins.found found, ok]

theorem Clears.settled (clears : deck.Clears d tree operation x) :
    Settled (deck.operate d tree operation) := by
  cases clears with
  | loadFails begins found => exact begins.settled found
  | promptCancelled cues | startRejected cues | playFails cues | seekFails cues =>
    obtain ⟨source, path, begins, found, ok⟩ := cues
    exact begins.settled found

theorem Clears.fails (clears : deck.Clears d tree operation x) :
    (deck.operate d tree operation).1 = .error x := by
  cases clears with
  | @loadFails source path ask x begins found fails =>
    have failed := (load_fails_iff path x).2 fails
    rw [begins.found found]
    generalize deck.load d path = outcome at failed ⊢
    obtain ⟨result, after⟩ := outcome
    obtain rfl : result = .error x := failed
    rfl
  | promptCancelled cues cancelled =>
    rw [cues.operate_eq]
    simp only [begin, cancelled, startFrom]
  | startRejected cues given rejected =>
    rw [cues.operate_eq]
    simp only [begin, given, startFrom, rejected]
  | playFails cues starts held fails =>
    rw [cues.operate_eq, begin_of_startsAt starts, start_fails_iff held]
    exact launch_play_fails fails
  | seekFails cues starts held plays later fails =>
    rw [cues.operate_eq, begin_of_startsAt starts, start_fails_iff held]
    exact launch_seek_fails plays later fails

theorem Clears.unloaded (clears : deck.Clears d tree operation x) :
    (deck.operate d tree operation).2.Unloaded := by
  rcases clears.settled with ⟨ok, _⟩ | ⟨_, unloaded⟩
  · rw [clears.fails] at ok
    cases ok
  · exact unloaded

/-- A start that fails has one of the causes that are listed. -/
theorem Cues.fails_cases {loaded : Deck World Engine}
    (cues : deck.Cues d tree operation ask loaded) (fails : (loaded.begin d ask).1 = .error x) :
    deck.Clears d tree operation x := by
  have held : ∃ e, loaded.engine = some e := by
    obtain ⟨source, path, begins, found, ok⟩ := cues
    exact engine_of_load ok
  obtain ⟨e, held⟩ := held
  have started {ms : Nat} (starts : StartsAt loaded.state.durationMs ms ask) :
      deck.Clears d tree operation x := by
    rw [begin_of_startsAt starts, start_fails_iff held] at fails
    rcases launch_fails_cases fails with plays | ⟨plays, later, seeks⟩
    · exact .playFails cues starts held plays
    · exact .seekFails cues starts held plays later seeks
  cases ask with
  | none => exact started rfl
  | some ask =>
    cases given : ask (display loaded.state.durationMs) with
    | none =>
      simp only [begin, given, startFrom] at fails
      obtain rfl := Except.error.inj fails
      exact .promptCancelled cues given
    | some answer =>
      cases start : startTime loaded.state.durationMs answer with
      | error y =>
        simp only [begin, given, startFrom, start] at fails
        obtain rfl := Except.error.inj fails
        exact .startRejected cues given start
      | ok ms => exact started ⟨answer, given, start⟩

theorem Begins.fails_cases (begins : deck.Begins operation source ask)
    (fails : (deck.operate d tree operation).1 = .error x) :
    deck.Spares d tree operation x ∨ deck.Clears d tree operation x := by
  cases found : renditionOf tree source with
  | error y =>
    obtain rfl := renditionOf_error found
    rw [begins.missing found] at fails
    obtain rfl := Except.error.inj fails
    exact .inl (.noFile begins found)
  | ok path =>
    rw [begins.found found] at fails
    have failed : (deck.load d path).1 = .error x ↔ _ := load_fails_iff path x
    cases loading : deck.load d path with
    | mk result loaded =>
      rw [loading] at fails failed
      cases result with
      | error y => exact .inr (.loadFails begins found (failed.1 fails))
      | ok _ => exact .inr (Cues.fails_cases ⟨source, path, begins, found, loading⟩ fails)

end Begins

theorem pause_refused (d : Device World Engine)
    (other : ¬ (deck.state.status = .playing ∧ deck.engine.isSome)) :
    deck.pause d = (.error (.invalidTransition .pause deck.state.status), deck) := by
  unfold pause
  split
  · rename_i e playing held
    exact absurd ⟨playing, by simp [held]⟩ other
  · rfl

section Held

variable {e : Engine} {x : TransportError}

theorem pause_held (playing : deck.state.status = .playing) (held : deck.engine = some e)
    (fails : (d.pause e deck.world).1 = .error x) :
    deck.pause d = (.error x, { deck with world := (d.pause e deck.world).2 }) := by
  simp only [pause, playing, held]
  generalize d.pause e deck.world = outcome at fails ⊢
  obtain ⟨result, world⟩ := outcome
  obtain rfl : result = .error x := fails
  rfl

theorem resume_held (source : Path) (paused : deck.state.status = .paused)
    (held : deck.engine = some e) (fails : (d.play e deck.world).1 = .error x) :
    deck.resume d tree source = (.error x, { deck with world := (d.play e deck.world).2 }) := by
  simp only [resume, paused, held]
  generalize d.play e deck.world = outcome at fails ⊢
  obtain ⟨result, world⟩ := outcome
  obtain rfl : result = .error x := fails
  rfl

end Held

theorem Spares.outcome {operation : Operation} {x : TransportError}
    (spares : deck.Spares d tree operation x) :
    ∃ world, deck.operate d tree operation = (.error x, { deck with world }) := by
  cases spares with
  | noFile begins missing => exact ⟨deck.world, begins.missing missing⟩
  | pauseRefused other => exact ⟨deck.world, pause_refused d other⟩
  | pauseFails playing held fails => exact ⟨_, pause_held playing held fails⟩
  | resumeFails paused held fails => exact ⟨_, resume_held _ paused held fails⟩

theorem pause_fails_cases {x : TransportError} (fails : (deck.pause d).1 = .error x) :
    deck.Spares d tree .pause x := by
  by_cases plays : deck.state.status = .playing ∧ deck.engine.isSome
  · obtain ⟨playing, held⟩ := plays
    obtain ⟨e, engine⟩ := Option.isSome_iff_exists.1 held
    cases paused : (d.pause e deck.world).1 with
    | error y =>
      rw [pause_held playing engine paused] at fails
      obtain rfl := Except.error.inj fails
      exact .pauseFails playing engine paused
    | ok _ =>
      simp only [pause, playing, engine] at fails
      split at fails
      · rename_i y world failed
        rw [failed] at paused
        cases paused
      · cases fails
  · rw [pause_refused d plays] at fails
    obtain rfl := Except.error.inj fails
    exact .pauseRefused plays

theorem resume_fails_cases {source : Path} {x : TransportError}
    (fails : (deck.resume d tree source).1 = .error x) :
    deck.Spares d tree (.resume source) x ∨ deck.Clears d tree (.resume source) x := by
  by_cases goesOn : deck.state.status = .paused ∧ deck.engine.isSome
  · obtain ⟨paused, held⟩ := goesOn
    obtain ⟨e, engine⟩ := Option.isSome_iff_exists.1 held
    cases played : (d.play e deck.world).1 with
    | error y =>
      rw [resume_held source paused engine played] at fails
      obtain rfl := Except.error.inj fails
      exact .inl (.resumeFails paused engine played)
    | ok _ =>
      simp only [resume, paused, engine] at fails
      split at fails
      · rename_i y world failed
        rw [failed] at played
        cases played
      · cases fails
  · exact Begins.fails_cases (.resume source goesOn) fails

theorem fails_cases {operation : Operation} {x : TransportError} (other : operation ≠ .stop)
    (fails : (deck.operate d tree operation).1 = .error x) :
    deck.Spares d tree operation x ∨ deck.Clears d tree operation x := by
  cases operation with
  | play source => exact Begins.fails_cases (.play source) fails
  | playFrom source ask => exact Begins.fails_cases (.playFrom source ask) fails
  | pause => exact .inl (pause_fails_cases fails)
  | resume source => exact resume_fails_cases fails
  | stop => exact absurd rfl other
  | reset => cases fails

/-- An operation other than a stop fails for the causes that are listed and for no other. A failure
    that is noticed before anything has changed leaves the engine and the state as they were; every
    other failure leaves no engine and the blank state. -/
theorem failure_leaves_nothing_half_done (d : Device World Engine) (tree : FileTree)
    (deck : Deck World Engine) (operation : Operation) (x : TransportError) :
    let after := (deck.operate d tree operation).2
    (operation ≠ .stop → ((deck.operate d tree operation).1 = .error x ↔
      deck.Spares d tree operation x ∨ deck.Clears d tree operation x)) ∧
    (deck.Spares d tree operation x → after.engine = deck.engine ∧ after.state = deck.state) ∧
    (deck.Clears d tree operation x → after.engine = none ∧ after.state = .zero) := by
  intro after
  refine ⟨fun other => ⟨fun fails => fails_cases other fails, ?_⟩, fun spares => ?_,
    fun clears => clears.unloaded⟩
  · rintro (spares | clears)
    · obtain ⟨world, outcome⟩ := spares.outcome
      rw [outcome]
    · exact clears.fails
  · obtain ⟨world, outcome⟩ := spares.outcome
    simp only [after, outcome, and_self]

/-- A paused file is given up for one that cannot be moved to its start. -/
example :
    let tree : FileTree := ⟨[], [(["score.midi"], .file [])]⟩
    let script : Script := { durationMs := 90000, failing := [.seek] }
    let paused := serveAll Script.device (.empty script)
      [.operate tree (.play ⟨"score.ly"⟩), .operate tree .pause]
    let failed := paused.operate Script.device tree (.playFrom ⟨"score.ly"⟩ fun _ => some "1:00")
    paused.state.status = .paused ∧ failed.1 = .error (.engine "seek failed") ∧
      failed.2.state = .zero := by
  decide +kernel

end Deck

end ScoreDesk.Transport
