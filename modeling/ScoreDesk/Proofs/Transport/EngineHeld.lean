import Mathlib
import ScoreDesk.Proofs.Runs
import ScoreDesk.Proofs.Transport.DeckOperations
import ScoreDesk.Transport.Script

namespace ScoreDesk.Transport

variable {World Engine : Type}

namespace Request

def FailsToStop (d : Device World Engine) (deck : Deck World Engine) : Request → Prop
  | .operate _ .stop => ∃ e x, deck.engine = some e ∧ (d.stop e deck.world).1 = .error x
  | _ => False

/-- Whether a request leaves a deck alone that holds no engine though it is not idle. -/
def PassesBy : Request → Prop
  | .operate tree (.play source) => ∃ x, renditionOf tree source = .error x
  | .operate tree (.playFrom source _) => ∃ x, renditionOf tree source = .error x
  | .operate tree (.resume source) => ∃ x, renditionOf tree source = .error x
  | .operate _ .pause => True
  | .operate _ .stop => False
  | .operate _ .reset => False
  | .poll => True

end Request

namespace Deck

/-- A deck holds an engine exactly while it plays or is paused, and is blank while it is idle. -/
structure Paired (deck : Deck World Engine) : Prop where
  held : deck.engine.isSome ↔ deck.state.status = .playing ∨ deck.state.status = .paused
  blank : deck.state.status = .idle → deck.state = .zero

def Loaded (deck : Deck World Engine) : Prop :=
  deck.engine.isSome ∧ deck.state.status ≠ .idle

/-- A deck that believes in an engine which it does not hold. -/
def Lost (deck : Deck World Engine) : Prop :=
  deck.engine = none ∧ deck.state.status ≠ .idle

def Coherent (deck : Deck World Engine) : Prop :=
  deck.state.status = .idle → deck.Unloaded

variable {d : Device World Engine} {deck : Deck World Engine}

theorem Unloaded.coherent (unloaded : deck.Unloaded) : deck.Coherent :=
  fun _ => unloaded

theorem Unloaded.not_lost (unloaded : deck.Unloaded) : ¬ deck.Lost := by
  intro lost
  have zero := unloaded.2
  exact lost.2 (by rw [zero]; rfl)

theorem loaded_of_held {e : Engine} {status : Status} (held : deck.engine = some e)
    (now : deck.state.status = status) (active : status ≠ .idle) : deck.Loaded := by
  refine ⟨?_, ?_⟩
  · rw [held]
    rfl
  · rw [now]
    exact active

theorem Loaded.coherent (loaded : deck.Loaded) : deck.Coherent :=
  fun idle => absurd idle loaded.2

theorem Loaded.not_lost (loaded : deck.Loaded) : ¬ deck.Lost := by
  intro lost
  have held := loaded.1
  rw [lost.1] at held
  cases held

theorem Coherent.cases (coherent : deck.Coherent) : deck.Unloaded ∨ deck.Loaded ∨ deck.Lost := by
  by_cases idle : deck.state.status = .idle
  · exact .inl (coherent idle)
  · cases h : deck.engine with
    | none => exact .inr (.inr ⟨h, idle⟩)
    | some e => exact .inr (.inl (loaded_of_held h rfl idle))

theorem Coherent.paired_iff (coherent : deck.Coherent) : deck.Paired ↔ ¬ deck.Lost := by
  constructor
  · intro paired lost
    have active : deck.state.status = .playing ∨ deck.state.status = .paused := by
      cases h : deck.state.status with
      | idle => exact absurd h lost.2
      | playing => exact .inl rfl
      | paused => exact .inr rfl
    have held := paired.held.2 active
    rw [lost.1] at held
    cases held
  · intro found
    rcases coherent.cases with ⟨engine, state⟩ | ⟨held, active⟩ | lost
    · exact ⟨by simp [engine, state, State.zero], fun _ => state⟩
    · refine ⟨⟨fun _ => ?_, fun _ => held⟩, fun idle => absurd idle active⟩
      cases h : deck.state.status with
      | idle => exact absurd h active
      | playing => exact .inl rfl
      | paused => exact .inr rfl
    · exact absurd lost found

theorem Settled.cases {outcome : Result × Deck World Engine} (settled : Settled outcome) :
    outcome.2.Loaded ∨ outcome.2.Unloaded := by
  rcases settled with ⟨_, held, playing⟩ | ⟨_, unloaded⟩
  · exact .inl ⟨held, by rw [playing]; decide⟩
  · exact .inr unloaded

theorem pause_cases (d : Device World Engine) (deck : Deck World Engine) :
    (deck.pause d).2 = deck ∨ deck.Loaded ∧ (deck.pause d).2.Loaded := by
  unfold pause
  split
  · rename_i e playing held
    have loaded := loaded_of_held held playing (by decide)
    refine .inr ⟨loaded, ?_⟩
    split
    · exact loaded
    · exact ⟨loaded.1, by simp⟩
  · exact .inl rfl

theorem poll_cases (d : Device World Engine) (deck : Deck World Engine) :
    (deck.poll d).2 = deck ∨
      deck.Loaded ∧ ((deck.poll d).2.Loaded ∨ (deck.poll d).2.Unloaded) := by
  unfold poll
  split
  · rename_i e playing held
    have loaded := loaded_of_held held playing (by decide)
    refine .inr ⟨loaded, ?_⟩
    dsimp only
    split
    · exact .inr (reset_unloaded d _)
    · exact .inl loaded
  · exact .inl rfl
  · exact .inl rfl

theorem resume_cases (d : Device World Engine) (tree : FileTree) (source : Path)
    (deck : Deck World Engine) :
    deck.resume d tree source = deck.play d tree source ∨
      deck.Loaded ∧ (deck.resume d tree source).2.Loaded := by
  unfold resume
  split
  · rename_i e paused held
    have loaded := loaded_of_held held paused (by decide)
    refine .inr ⟨loaded, ?_⟩
    split
    · exact loaded
    · exact ⟨loaded.1, by simp⟩
  · exact .inl rfl

theorem stop_cases (d : Device World Engine) (tree : FileTree) (deck : Deck World Engine) :
    (deck.stop d).2 = deck ∧ deck.state.status = .idle ∨
      (deck.stop d).2.Unloaded ∧ ¬ (Request.operate tree .stop).FailsToStop d deck ∨
      (deck.stop d).2.Lost ∧ (Request.operate tree .stop).FailsToStop d deck := by
  unfold stop
  split
  · rename_i idle
    exact .inl ⟨rfl, idle⟩
  · rename_i active
    right
    split
    · rename_i held
      exact .inl ⟨⟨held, rfl⟩, by simp [Request.FailsToStop, held]⟩
    · rename_i e held
      split
      · rename_i x world stopped
        exact .inr ⟨⟨rfl, active⟩, e, x, held, by rw [stopped]⟩
      · rename_i world stopped
        exact .inl ⟨⟨rfl, rfl⟩, by simp [Request.FailsToStop, held, stopped]⟩

def Attempted (deck after : Deck World Engine) (rendition : Except TransportError Path) : Prop :=
  after = deck ∧ (∃ x, rendition = .error x) ∨
    (after.Loaded ∨ after.Unloaded) ∧ ¬ ∃ x, rendition = .error x

theorem attempted_of_outcome {outcome : Result × Deck World Engine}
    {rendition : Except TransportError Path}
    (missing : ∀ x, rendition = .error x → outcome = (.error x, deck))
    (found : ∀ path, rendition = .ok path → Settled outcome) :
    Attempted deck outcome.2 rendition := by
  cases rendition with
  | error x => exact .inl ⟨by rw [missing x rfl], x, rfl⟩
  | ok path => exact .inr ⟨(found path rfl).cases, by simp⟩

theorem play_attempted (d : Device World Engine) (tree : FileTree) (source : Path)
    (deck : Deck World Engine) :
    Attempted deck (deck.play d tree source).2 (renditionOf tree source) :=
  attempted_of_outcome (fun _ => play_missing d deck) fun _ => play_found d deck

theorem playFrom_attempted (d : Device World Engine) (tree : FileTree) (source : Path)
    (ask : String → Option String) (deck : Deck World Engine) :
    Attempted deck (deck.playFrom d tree source ask).2 (renditionOf tree source) :=
  attempted_of_outcome (fun _ => playFrom_missing d deck ask) fun _ => playFrom_found d deck ask

/-- What a request comes to: it leaves the deck alone, or it settles what the deck holds, or it
    loses an engine that it fails to stop. -/
theorem serve_cases (d : Device World Engine) (coherent : deck.Coherent) (request : Request) :
    (deck.serve d request = deck ∧ (deck.Lost → request.PassesBy) ∧
        ¬ request.FailsToStop d deck) ∨
      (((deck.serve d request).Loaded ∨ (deck.serve d request).Unloaded) ∧
        ¬ (deck.Lost ∧ request.PassesBy) ∧ ¬ request.FailsToStop d deck) ∨
      ((deck.serve d request).Lost ∧ request.FailsToStop d deck) := by
  cases request with
  | poll =>
    rcases poll_cases d deck with same | ⟨loaded, after⟩
    · exact .inl ⟨same, fun _ => trivial, id⟩
    · exact .inr (.inl ⟨after, fun passes => loaded.not_lost passes.1, id⟩)
  | operate tree operation =>
    cases operation with
    | play source =>
      rcases play_attempted d tree source deck with ⟨same, missing⟩ | ⟨settled, found⟩
      · exact .inl ⟨same, fun _ => missing, id⟩
      · exact .inr (.inl ⟨settled, fun passes => found passes.2, id⟩)
    | playFrom source ask =>
      rcases playFrom_attempted d tree source ask deck with ⟨same, missing⟩ | ⟨settled, found⟩
      · exact .inl ⟨same, fun _ => missing, id⟩
      · exact .inr (.inl ⟨settled, fun passes => found passes.2, id⟩)
    | pause =>
      rcases pause_cases d deck with same | ⟨loaded, after⟩
      · exact .inl ⟨same, fun _ => trivial, id⟩
      · exact .inr (.inl ⟨.inl after, fun passes => loaded.not_lost passes.1, id⟩)
    | resume source =>
      rcases resume_cases d tree source deck with plays | ⟨loaded, after⟩
      · have served : deck.serve d (.operate tree (.resume source)) =
            (deck.play d tree source).2 := congrArg Prod.snd plays
        rw [served]
        rcases play_attempted d tree source deck with ⟨same, missing⟩ | ⟨settled, found⟩
        · exact .inl ⟨same, fun _ => missing, id⟩
        · exact .inr (.inl ⟨settled, fun passes => found passes.2, id⟩)
      · exact .inr (.inl ⟨.inl after, fun passes => loaded.not_lost passes.1, id⟩)
    | stop =>
      rcases stop_cases d tree deck with ⟨same, idle⟩ | ⟨unloaded, stops⟩ | ⟨lost, fails⟩
      · refine .inl ⟨same, fun lost => absurd idle lost.2, fun fails => ?_⟩
        obtain ⟨e, x, held, _⟩ := fails
        rw [(coherent idle).1] at held
        cases held
      · exact .inr (.inl ⟨.inr unloaded, And.right, stops⟩)
      · exact .inr (.inr ⟨lost, fails⟩)
    | reset => exact .inr (.inl ⟨.inr (reset_unloaded d deck), And.right, id⟩)

theorem serve_coherent (d : Device World Engine) (coherent : deck.Coherent) (request : Request) :
    (deck.serve d request).Coherent := by
  rcases serve_cases d coherent request with ⟨same, _⟩ | ⟨loaded | unloaded, _⟩ | ⟨lost, _⟩
  · rw [same]
    exact coherent
  · exact loaded.coherent
  · exact unloaded.coherent
  · exact fun idle => absurd idle lost.2

theorem serve_lost_iff (d : Device World Engine) (coherent : deck.Coherent) (request : Request) :
    (deck.serve d request).Lost ↔
      request.FailsToStop d deck ∨ deck.Lost ∧ request.PassesBy := by
  rcases serve_cases d coherent request with ⟨same, passes, stops⟩ | ⟨settled, takes, stops⟩ |
    ⟨lost, fails⟩
  · rw [same]
    constructor
    · exact fun lost => .inr ⟨lost, passes lost⟩
    · exact fun cause => cause.elim (fun fails => absurd fails stops) And.left
  · have kept : ¬ (deck.serve d request).Lost := settled.elim Loaded.not_lost Unloaded.not_lost
    constructor
    · exact fun lost => absurd lost kept
    · exact fun cause => cause.elim (fun fails => absurd fails stops) fun both => absurd both takes
  · exact ⟨fun _ => .inl fails, fun _ => lost⟩

theorem serveAll_coherent (d : Device World Engine) (coherent : deck.Coherent)
    (requests : List Request) :
    (deck.serveAll d requests).Coherent := by
  induction requests generalizing deck with
  | nil => exact coherent
  | cons request rest ih => exact ih (serve_coherent d coherent request)

theorem serveAll_lost_iff (d : Device World Engine) (coherent : deck.Coherent)
    (found : ¬ deck.Lost) (requests : List Request) :
    (deck.serveAll d requests).Lost ↔
      ∃ before request after, requests = before ++ request :: after ∧
        request.FailsToStop d (deck.serveAll d before) ∧ ∀ later ∈ after, later.PassesBy := by
  refine foldl_iff_last_cause found requests fun before request _ => ?_
  exact serve_lost_iff d (serveAll_coherent d coherent before) request

/-- An idle deck is always blank and empty. A deck holds an engine exactly while it plays or is
    paused, unless an engine could not be stopped and nothing since then found a file to play or
    put the deck back. -/
theorem paired_unless_stop_failed (d : Device World Engine) (world : World)
    (requests : List Request) :
    let run (requests : List Request) := serveAll d (.empty world) requests
    ((run requests).state.status = .idle →
      (run requests).engine = none ∧ (run requests).state = .zero) ∧
    ((run requests).Paired ↔
      ¬ ∃ before request after, requests = before ++ request :: after ∧
        request.FailsToStop d (run before) ∧ ∀ later ∈ after, later.PassesBy) := by
  have unloaded : (empty world : Deck World Engine).Unloaded := ⟨rfl, rfl⟩
  have coherent := serveAll_coherent d unloaded.coherent requests
  refine ⟨coherent, ?_⟩
  rw [coherent.paired_iff, serveAll_lost_iff d unloaded.coherent unloaded.not_lost]

/-- The engine that cannot be stopped is gone, but the deck still plays. -/
theorem failing_stop_unpairs :
    let tree : FileTree := ⟨[], [(["score.midi"], .file [])]⟩
    let requests : List Request := [.operate tree (.play ⟨"score.ly"⟩), .operate tree .stop]
    let deck := serveAll Script.device (.empty { failing := [.stop] }) requests
    deck.engine = none ∧ deck.state.status = .playing ∧ ¬ deck.Paired := by
  intro tree requests deck
  have lost : deck.engine = none ∧ deck.state.status = .playing := by decide +kernel
  refine ⟨lost.1, lost.2, fun paired => ?_⟩
  have held := paired.held.2 (.inl lost.2)
  rw [lost.1] at held
  cases held

end Deck

end ScoreDesk.Transport
