import Mathlib
import ScoreDesk.Transport.Monitor

namespace ScoreDesk.Transport

variable {World Engine : Type}

namespace Deck

def Unloaded (deck : Deck World Engine) : Prop :=
  deck.engine = none ∧ deck.state = .zero

/-- An attempt to start a file ends with an engine that plays or with nothing loaded. -/
def Settled (outcome : Result × Deck World Engine) : Prop :=
  (outcome.1 = .ok () ∧ outcome.2.engine.isSome ∧ outcome.2.state.status = .playing) ∨
    ((∃ x, outcome.1 = .error x) ∧ outcome.2.Unloaded)

variable (d : Device World Engine) (tree : FileTree) (source : Path) (deck : Deck World Engine)

@[simp] theorem reset_unloaded : (deck.reset d).Unloaded := by
  unfold reset
  cases h : deck.engine <;> simp [Unloaded]

theorem load_cases (path : Path) :
    (∃ x, (deck.load d path).1 = .error x ∧ (deck.load d path).2.Unloaded) ∨
      ((deck.load d path).1 = .ok () ∧ ∃ e, (deck.load d path).2.engine = some e) := by
  have unloaded := deck.reset_unloaded d
  simp only [load]
  split
  · rename_i x world loaded
    exact .inl ⟨x, rfl, unloaded⟩
  · rename_i e world loaded
    exact .inr ⟨rfl, e, rfl⟩

theorem load_then_settled (path : Path) (next : Deck World Engine → Result × Deck World Engine)
    (starts : ∀ (loaded : Deck World Engine) (e : Engine), loaded.engine = some e →
      Settled (next loaded)) :
    Settled (match deck.load d path with
      | (.error x, loaded) => (.error x, loaded)
      | (.ok (), loaded) => next loaded) := by
  have cases := deck.load_cases d path
  generalize deck.load d path = outcome at cases ⊢
  obtain ⟨result, loaded⟩ := outcome
  dsimp only at cases
  rcases cases with ⟨x, rfl, unloaded⟩ | ⟨rfl, e, held⟩
  · exact .inr ⟨⟨x, rfl⟩, unloaded⟩
  · exact starts loaded e held

theorem start_settled (ms : Nat) (e : Engine) (held : deck.engine = some e) :
    Settled (deck.start d ms) := by
  simp only [start, held]
  split
  · rename_i x world failed
    exact .inr ⟨⟨x, rfl⟩, reset_unloaded d _⟩
  · exact .inl ⟨rfl, rfl, rfl⟩

theorem startFrom_settled (answer : Option String) (e : Engine) (held : deck.engine = some e) :
    Settled (deck.startFrom d answer) := by
  cases answer with
  | none => exact .inr ⟨⟨_, rfl⟩, reset_unloaded d _⟩
  | some answer =>
    simp only [startFrom]
    split
    · rename_i x rejected
      exact .inr ⟨⟨x, rfl⟩, reset_unloaded d _⟩
    · exact deck.start_settled d _ e held

variable {tree source}

theorem cue_missing {x : TransportError} (missing : renditionOf tree source = .error x) :
    deck.cue d tree source = (.error x, deck) := by
  unfold cue
  rw [missing]

theorem cue_found {path : Path} (found : renditionOf tree source = .ok path) :
    deck.cue d tree source = deck.load d path := by
  unfold cue
  rw [found]

theorem play_missing {x : TransportError} (missing : renditionOf tree source = .error x) :
    deck.play d tree source = (.error x, deck) := by
  unfold play
  rw [cue_missing d deck missing]

theorem playFrom_missing (ask : String → Option String) {x : TransportError}
    (missing : renditionOf tree source = .error x) :
    deck.playFrom d tree source ask = (.error x, deck) := by
  unfold playFrom
  rw [cue_missing d deck missing]

theorem play_found {path : Path} (found : renditionOf tree source = .ok path) :
    Settled (deck.play d tree source) := by
  unfold play
  rw [cue_found d deck found]
  exact load_then_settled d deck path _ fun loaded e held => loaded.start_settled d 0 e held

theorem playFrom_found (ask : String → Option String) {path : Path}
    (found : renditionOf tree source = .ok path) :
    Settled (deck.playFrom d tree source ask) := by
  unfold playFrom
  rw [cue_found d deck found]
  exact load_then_settled d deck path _ fun loaded e held => loaded.startFrom_settled d _ e held

def operate (d : Device World Engine) (tree : FileTree) (deck : Deck World Engine) :
    Operation → Result × Deck World Engine
  | .play source => deck.play d tree source
  | .playFrom source ask => deck.playFrom d tree source ask
  | .pause => deck.pause d
  | .resume source => deck.resume d tree source
  | .stop => deck.stop d
  | .reset => (.ok (), deck.reset d)

end Deck

inductive Request where
  | operate (tree : FileTree) (operation : Operation)
  | poll

namespace Deck

def serve (d : Device World Engine) (deck : Deck World Engine) : Request → Deck World Engine
  | .operate tree operation => (deck.operate d tree operation).2
  | .poll => (deck.poll d).2

def serveAll (d : Device World Engine) (deck : Deck World Engine) (requests : List Request) :
    Deck World Engine :=
  requests.foldl (serve d) deck

@[simp] theorem serveAll_append (d : Device World Engine) (deck : Deck World Engine)
    (requests later : List Request) :
    deck.serveAll d (requests ++ later) = (deck.serveAll d requests).serveAll d later :=
  List.foldl_append

end Deck

end ScoreDesk.Transport
