import Mathlib
import ScoreDesk.Proofs.Transport.DeckOperations

namespace ScoreDesk.Transport

variable {World Engine : Type}

structure Device.Keeps (d : Device World Engine) (I : World → Option Engine → Bool → Prop) :
    Prop where
  allows : ∀ {w engine}, I w engine false → I w engine true
  unloaded : ∀ {w}, I w none true → I w none false
  load : ∀ path {w}, I w none false → I (d.load path w).2 (d.load path w).1.toOption false
  play : ∀ e {w}, I w (some e) false → I (d.play e w).2 (some e) (d.play e w).1.isOk
  pause : ∀ e {w}, I w (some e) true → I (d.pause e w).2 (some e) false
  stop : ∀ e {w}, I w (some e) true → I (d.stop e w).2 none false
  seek : ∀ e ms {w}, I w (some e) true → I (d.seek e ms w).2 (some e) true
  position : ∀ e {w plays}, I w (some e) plays → I (d.position e w).2 (some e) plays
  duration : ∀ e {w plays}, I w (some e) plays → I (d.duration e w).2 (some e) plays
  ended : ∀ e {w}, I w (some e) true → I (d.ended e w).2 (some e) true

def State.plays (s : State) : Bool :=
  s.status = .playing

namespace Deck

def Kept (I : World → Option Engine → Bool → Prop) (deck : Deck World Engine) : Prop :=
  I deck.world deck.engine deck.state.plays

variable {d : Device World Engine} {I : World → Option Engine → Bool → Prop}
variable {deck : Deck World Engine} (keeps : d.Keeps I)
include keeps

theorem kept_of_silent (silent : I deck.world deck.engine false) : deck.Kept I := by
  unfold Kept
  cases deck.state.plays with
  | false => exact silent
  | true => exact keeps.allows silent

theorem Kept.loud (kept : deck.Kept I) : I deck.world deck.engine true := by
  unfold Kept at kept
  cases plays : deck.state.plays with
  | false =>
    rw [plays] at kept
    exact keeps.allows kept
  | true => rwa [plays] at kept

theorem reset_silent (loud : I deck.world deck.engine true) :
    I (deck.reset d).world none false := by
  unfold reset
  cases held : deck.engine with
  | none =>
    rw [held] at loud
    exact keeps.unloaded loud
  | some e =>
    rw [held] at loud
    exact keeps.stop e loud

theorem reset_kept (loud : I deck.world deck.engine true) : (deck.reset d).Kept I := by
  have silent := reset_silent keeps loud
  rw [← (deck.reset_unloaded d).1] at silent
  exact kept_of_silent keeps silent

theorem load_silent (kept : deck.Kept I) (path : Path) :
    I (deck.load d path).2.world (deck.load d path).2.engine false := by
  have silent := reset_silent keeps (kept.loud keeps)
  have unloaded := (deck.reset_unloaded d).1
  unfold load
  generalize deck.reset d = fresh at silent unloaded ⊢
  have loaded := keeps.load path silent
  dsimp only
  generalize d.load path fresh.world = outcome at loaded ⊢
  rcases outcome with ⟨x | e, world⟩
  · rw [unloaded]
    exact loaded
  · exact keeps.duration e loaded

theorem launch_loud (e : Engine) (ms : Nat) {world : World} (silent : I world (some e) false) :
    I (launch d e ms world).2 (some e) true := by
  have played := keeps.play e silent
  unfold launch
  generalize d.play e world = outcome at played ⊢
  rcases outcome with ⟨x | _, after⟩
  · exact keeps.allows played
  · dsimp only
    split
    · exact played
    · exact keeps.seek e ms played

theorem start_kept (ms : Nat) (silent : I deck.world deck.engine false) :
    (deck.start d ms).2.Kept I := by
  unfold start
  cases held : deck.engine with
  | none => exact kept_of_silent keeps silent
  | some e =>
    rw [held] at silent
    have launched := launch_loud keeps e ms silent
    dsimp only
    generalize launch d e ms deck.world = outcome at launched ⊢
    rcases outcome with ⟨x | _, world⟩
    · exact reset_kept keeps launched
    · exact launched

theorem startFrom_kept (answer : Option String) (silent : I deck.world deck.engine false) :
    (deck.startFrom d answer).2.Kept I := by
  have back := reset_kept keeps (keeps.allows silent)
  unfold startFrom
  split
  · exact back
  · split
    · exact back
    · exact start_kept keeps _ silent

theorem cue_then_kept (kept : deck.Kept I) (tree : FileTree) (source : Path)
    (next : Deck World Engine → Result × Deck World Engine)
    (starts : ∀ loaded : Deck World Engine, I loaded.world loaded.engine false →
      (next loaded).2.Kept I) :
    (match deck.cue d tree source with
      | (.error x, after) => (.error x, after)
      | (.ok (), loaded) => next loaded : Result × Deck World Engine).2.Kept I := by
  unfold cue
  cases renditionOf tree source with
  | error x => exact kept
  | ok path =>
    have silent := load_silent keeps kept path
    dsimp only
    generalize deck.load d path = outcome at silent ⊢
    rcases outcome with ⟨x | _, loaded⟩
    · exact kept_of_silent keeps silent
    · exact starts loaded silent

theorem play_kept (kept : deck.Kept I) (tree : FileTree) (source : Path) :
    (deck.play d tree source).2.Kept I :=
  cue_then_kept keeps kept tree source _ fun _ => start_kept keeps 0

theorem playFrom_kept (kept : deck.Kept I) (tree : FileTree) (source : Path)
    (ask : String → Option String) : (deck.playFrom d tree source ask).2.Kept I :=
  cue_then_kept keeps kept tree source _ fun _ => startFrom_kept keeps _

theorem pause_kept (kept : deck.Kept I) : (deck.pause d).2.Kept I := by
  unfold pause
  split
  · rename_i e playing held
    have loud := kept.loud keeps
    rw [held] at loud
    have paused := keeps.pause e loud
    generalize d.pause e deck.world = outcome at paused ⊢
    rcases outcome with ⟨x | _, world⟩
    · rw [← held] at paused
      exact kept_of_silent keeps paused
    · have looked := keeps.position e paused
      rw [← held] at looked
      exact kept_of_silent keeps looked
  · exact kept

theorem resume_kept (kept : deck.Kept I) (tree : FileTree) (source : Path) :
    (deck.resume d tree source).2.Kept I := by
  unfold resume
  split
  · rename_i e paused held
    -- Refused or not, the call comes to an engine that does not play.
    have silent : I deck.world (some e) false := by
      have still : deck.state.plays = false := by simp [State.plays, paused]
      rwa [Kept, still, held] at kept
    have played := keeps.play e silent
    rw [← held] at played
    generalize d.play e deck.world = outcome at played ⊢
    rcases outcome with ⟨x | _, world⟩
    · exact kept_of_silent keeps played
    · exact played
  · exact play_kept keeps kept tree source

theorem stop_kept (kept : deck.Kept I) : (deck.stop d).2.Kept I := by
  have loud := kept.loud keeps
  unfold stop
  split
  · exact kept
  · split
    · rename_i held
      rw [held] at loud
      exact kept_of_silent keeps (by rw [held]; exact keeps.unloaded loud)
    · rename_i e held
      rw [held] at loud
      have stopped := keeps.stop e loud
      generalize d.stop e deck.world = outcome at stopped ⊢
      rcases outcome with ⟨x | _, world⟩
      · exact kept_of_silent keeps stopped
      · exact kept_of_silent keeps stopped

theorem poll_kept (kept : deck.Kept I) : (deck.poll d).2.Kept I := by
  unfold poll
  split
  · rename_i e playing held
    have loud := kept.loud keeps
    rw [held] at loud
    have looked := keeps.ended e (keeps.position e loud)
    dsimp only
    split
    · exact reset_kept keeps (by rw [held]; exact looked)
    · have measured := keeps.duration e looked
      have plays : deck.state.plays = true := by simp [State.plays, playing]
      rw [← held, ← plays] at measured
      exact measured
  · exact kept
  · exact kept

theorem serve_kept (kept : deck.Kept I) (request : Request) : (deck.serve d request).Kept I := by
  cases request with
  | poll => exact poll_kept keeps kept
  | operate tree operation =>
    cases operation with
    | play source => exact play_kept keeps kept tree source
    | playFrom source ask => exact playFrom_kept keeps kept tree source ask
    | pause => exact pause_kept keeps kept
    | resume source => exact resume_kept keeps kept tree source
    | stop => exact stop_kept keeps kept
    | reset => exact reset_kept keeps (kept.loud keeps)

-- By induction on the requests: each of them keeps the invariant.
theorem serveAll_kept (kept : deck.Kept I) (requests : List Request) :
    (deck.serveAll d requests).Kept I := by
  induction requests generalizing deck with
  | nil => exact kept
  | cons request rest ih => exact ih (serve_kept keeps kept request)

end Deck

end ScoreDesk.Transport
