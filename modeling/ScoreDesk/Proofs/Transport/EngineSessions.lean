import Mathlib
import ScoreDesk.Proofs.Transport.DeckInvariants

namespace ScoreDesk.Transport

variable {World Engine : Type}

namespace Call

def engine? : Call Nat → Option Nat
  | .load _ _ => none
  | .play i => some i
  | .pause i => some i
  | .stop i => some i
  | .seek i _ => some i
  | .look i => some i

def Obtains (calls : List (Call Nat)) (i : Nat) : Prop :=
  ∃ path, .load path (some i) ∈ calls

def LeavesOpen (calls : List (Call Nat)) (i : Nat) : Prop :=
  Obtains calls i ∧ .stop i ∉ calls

end Call

/-- Calls that form sessions, with the number of engines that were obtained and the one that is
    open. An engine is asked for while none is open, and the open one is used until it is
    stopped. -/
inductive Sessions : List (Call Nat) → Nat → Option Nat → Prop
  | nil : Sessions [] 0 none
  | refused {calls : List (Call Nat)} {n : Nat} (path : Path) :
      Sessions calls n none → Sessions (calls ++ [.load path none]) n none
  | obtained {calls : List (Call Nat)} {n : Nat} (path : Path) :
      Sessions calls n none → Sessions (calls ++ [.load path (some n)]) (n + 1) (some n)
  | used {calls : List (Call Nat)} {n i : Nat} (call : Call Nat) (its : call.engine? = some i)
      (goes : call ≠ .stop i) :
      Sessions calls n (some i) → Sessions (calls ++ [call]) n (some i)
  | stopped {calls : List (Call Nat)} {n i : Nat} :
      Sessions calls n (some i) → Sessions (calls ++ [.stop i]) n none

namespace Sessions

variable {calls : List (Call Nat)} {n : Nat} {current : Option Nat}

theorem current_lt (sessions : Sessions calls n current) {i : Nat} (here : current = some i) :
    i < n := by
  induction sessions with
  | nil => cases here
  | refused path before ih => cases here
  | obtained path before ih =>
    obtain rfl := Option.some.inj here
    exact Nat.lt_succ_self _
  | used call its goes before ih => exact ih here
  | stopped before ih => cases here

theorem obtains_iff (sessions : Sessions calls n current) (i : Nat) :
    Call.Obtains calls i ↔ i < n := by
  induction sessions with
  | nil => simp [Call.Obtains]
  | refused path before ih => simpa [Call.Obtains] using ih
  | @obtained calls n path before ih =>
    have either : Call.Obtains (calls ++ [.load path (some n)]) i ↔
        Call.Obtains calls i ∨ i = n := by
      simp [Call.Obtains, exists_or]
    rw [either, ih]
    omega
  | @used calls n j call its goes before ih =>
    have other : ∀ path, call ≠ .load path (some i) := by
      rintro path rfl
      cases its
    have same : Call.Obtains (calls ++ [call]) i ↔ Call.Obtains calls i := by
      simp [Call.Obtains, fun path => (other path).symm]
    rw [same, ih]
  | stopped before ih => simpa [Call.Obtains] using ih

theorem count_stop (sessions : Sessions calls n current) (i : Nat) :
    calls.count (.stop i) = if i < n ∧ current ≠ some i then 1 else 0 := by
  induction sessions with
  | nil => simp
  | refused path before ih => simpa [List.count_append] using ih
  | @obtained calls n path before ih =>
    rw [List.count_append, ih]
    simp
    split <;> split <;> omega
  | @used calls n j call its goes before ih =>
    rw [List.count_append, ih]
    have other : call ≠ .stop i := by
      rintro rfl
      obtain rfl := Option.some.inj its
      exact goes rfl
    simp [other]
  | @stopped calls n j before ih =>
    have bound := before.current_lt rfl
    rw [List.count_append, ih]
    by_cases same : j = i
    · subst same
      simp [bound]
    · simp [same]

theorem of_concat {call : Call Nat} (sessions : Sessions (calls ++ [call]) n current) :
    ∃ m, Sessions calls m call.engine? := by
  generalize joined : calls ++ [call] = all at sessions
  cases sessions with
  | nil => simp at joined
  | refused path before =>
    obtain ⟨rfl, last⟩ := List.append_inj' joined rfl
    obtain rfl := List.singleton_inj.1 last
    exact ⟨_, before⟩
  | obtained path before =>
    obtain ⟨rfl, last⟩ := List.append_inj' joined rfl
    obtain rfl := List.singleton_inj.1 last
    exact ⟨_, before⟩
  | used other its goes before =>
    obtain ⟨rfl, last⟩ := List.append_inj' joined rfl
    obtain rfl := List.singleton_inj.1 last
    exact ⟨_, its ▸ before⟩
  | stopped before =>
    obtain ⟨rfl, last⟩ := List.append_inj' joined rfl
    obtain rfl := List.singleton_inj.1 last
    exact ⟨_, before⟩

theorem at_call {before after : List (Call Nat)} {call : Call Nat}
    (sessions : Sessions (before ++ call :: after) n current) :
    ∃ m, Sessions before m call.engine? := by
  induction after using List.reverseRecOn generalizing n current with
  | nil => exact sessions.of_concat
  | append_singleton after last ih =>
    rw [← List.cons_append, ← List.append_assoc] at sessions
    obtain ⟨m, shorter⟩ := sessions.of_concat
    exact ih shorter

theorem of_append {before after : List (Call Nat)}
    (sessions : Sessions (before ++ after) n current) :
    ∃ m earlier, Sessions before m earlier := by
  cases after with
  | nil => exact ⟨n, current, by simpa using sessions⟩
  | cons call after =>
    obtain ⟨m, shorter⟩ := sessions.at_call
    exact ⟨m, _, shorter⟩

theorem stop_mem (sessions : Sessions calls n current) {i : Nat} (obtained : Call.Obtains calls i)
    (closed : current ≠ some i) : .stop i ∈ calls := by
  have once := sessions.count_stop i
  rw [if_pos ⟨(sessions.obtains_iff i).1 obtained, closed⟩] at once
  exact List.count_pos_iff.1 (by omega)

theorem stop_not_mem {i : Nat} (sessions : Sessions calls n (some i)) : .stop i ∉ calls := by
  have never := sessions.count_stop i
  rw [if_neg (by simp)] at never
  exact List.count_eq_zero.1 never

end Sessions

namespace Device

variable (d : Device World Engine) (e : Nat × Engine) (w : World × Nat × List (Call Nat))

theorem recorded_play : d.recorded.play e w =
    ((d.play e.2 w.1).1, (d.play e.2 w.1).2, w.2.1, w.2.2 ++ [.play e.1]) := rfl

theorem recorded_pause : d.recorded.pause e w =
    ((d.pause e.2 w.1).1, (d.pause e.2 w.1).2, w.2.1, w.2.2 ++ [.pause e.1]) := rfl

theorem recorded_stop : d.recorded.stop e w =
    ((d.stop e.2 w.1).1, (d.stop e.2 w.1).2, w.2.1, w.2.2 ++ [.stop e.1]) := rfl

def Logged (w : World × Nat × List (Call Nat)) (held : Option (Nat × Engine)) (_ : Bool) : Prop :=
  Sessions w.2.2 w.2.1 (held.map Prod.fst)

theorem recorded_keeps : d.recorded.Keeps Logged where
  allows logged := logged
  unloaded logged := logged
  load path w logged := by
    dsimp only [recorded]
    split
    · rename_i e world loaded
      exact Sessions.obtained path logged
    · rename_i x world refused
      exact Sessions.refused path logged
  play e _ logged := Sessions.used (.play e.1) rfl (by simp) logged
  pause e _ logged := Sessions.used (.pause e.1) rfl (by simp) logged
  stop _ _ logged := Sessions.stopped logged
  seek e ms _ logged := Sessions.used (.seek e.1 ms) rfl (by simp) logged
  position e _ _ logged := Sessions.used (.look e.1) rfl (by simp) logged
  duration e _ _ logged := Sessions.used (.look e.1) rfl (by simp) logged
  ended e _ logged := Sessions.used (.look e.1) rfl (by simp) logged

end Device

abbrev RecordedDeck (World Engine : Type) :=
  Deck (World × Nat × List (Call Nat)) (Nat × Engine)

namespace Deck

def forget (deck : RecordedDeck World Engine) : Deck World Engine :=
  ⟨deck.engine.map Prod.snd, deck.state, deck.world.1⟩

variable (d : Device World Engine) (deck : RecordedDeck World Engine)

theorem reset_forget : (deck.reset d.recorded).forget = deck.forget.reset d := by
  obtain ⟨engine, state, world⟩ := deck
  cases engine <;> rfl

theorem load_forget (path : Path) :
    (deck.load d.recorded path).map id forget = deck.forget.load d path := by
  have fresh := deck.reset_forget d
  unfold load
  rw [← fresh]
  generalize deck.reset d.recorded = fresh
  obtain ⟨engine, state, world, n, calls⟩ := fresh
  dsimp only [Device.recorded, forget]
  cases d.load path world with
  | mk result world => cases result <;> rfl

theorem launch_forget (e : Nat × Engine) (ms : Nat) (world : World × Nat × List (Call Nat)) :
    (launch d.recorded e ms world).map id Prod.fst = launch d e.2 ms world.1 := by
  unfold launch
  rw [Device.recorded_play]
  cases d.play e.2 world.1 with
  | mk result world =>
    cases result with
    | error x => rfl
    | ok _ =>
      by_cases beginning : ms = 0
      · simp [beginning]
      · simp only [beginning, if_false]
        rfl

theorem start_forget (ms : Nat) :
    (deck.start d.recorded ms).map id forget = deck.forget.start d ms := by
  obtain ⟨engine, state, world⟩ := deck
  cases engine with
  | none => rfl
  | some e =>
    have launched := launch_forget d e ms world
    simp only [start, forget, Option.map_some, ← launched]
    generalize launch d.recorded e ms world = outcome
    rcases outcome with ⟨x | _, world⟩ <;> rfl

theorem startFrom_forget (answer : Option String) :
    (deck.startFrom d.recorded answer).map id forget = deck.forget.startFrom d answer := by
  cases answer with
  | none => simp [startFrom, deck.reset_forget d]
  | some answer =>
    have same : deck.forget.state = deck.state := rfl
    simp only [startFrom, same]
    cases startTime deck.state.durationMs answer with
    | error x => simp [deck.reset_forget d]
    | ok ms => exact deck.start_forget d ms

theorem cue_forget (tree : FileTree) (source : Path) :
    (deck.cue d.recorded tree source).map id forget = deck.forget.cue d tree source := by
  unfold cue
  cases renditionOf tree source with
  | error x => rfl
  | ok path => exact deck.load_forget d path

theorem play_forget (tree : FileTree) (source : Path) :
    (deck.play d.recorded tree source).map id forget = deck.forget.play d tree source := by
  unfold play
  rw [← deck.cue_forget d tree source]
  generalize deck.cue d.recorded tree source = outcome
  rcases outcome with ⟨x | _, loaded⟩
  · rfl
  · exact loaded.start_forget d 0

theorem playFrom_forget (tree : FileTree) (source : Path) (ask : String → Option String) :
    (deck.playFrom d.recorded tree source ask).map id forget =
      deck.forget.playFrom d tree source ask := by
  unfold playFrom
  rw [← deck.cue_forget d tree source]
  generalize deck.cue d.recorded tree source = outcome
  rcases outcome with ⟨x | _, loaded⟩
  · rfl
  · exact loaded.startFrom_forget d _

theorem pause_forget : (deck.pause d.recorded).map id forget = deck.forget.pause d := by
  obtain ⟨engine, ⟨status, file, positionMs, durationMs⟩, world⟩ := deck
  cases engine with
  | none => cases status <;> rfl
  | some e =>
    cases status with
    | idle => rfl
    | paused => rfl
    | playing =>
      simp only [pause, forget, Option.map_some, Device.recorded_pause]
      cases d.pause e.2 world.1 with
      | mk result world => cases result <;> rfl

theorem resume_forget (tree : FileTree) (source : Path) :
    (deck.resume d.recorded tree source).map id forget = deck.forget.resume d tree source := by
  obtain ⟨engine, ⟨status, file, positionMs, durationMs⟩, world⟩ := deck
  cases engine with
  | none => cases status <;> exact play_forget d _ tree source
  | some e =>
    cases status with
    | idle => exact play_forget d _ tree source
    | playing => exact play_forget d _ tree source
    | paused =>
      simp only [resume, forget, Option.map_some, Device.recorded_play]
      cases d.play e.2 world.1 with
      | mk result world => cases result <;> rfl

theorem stop_forget : (deck.stop d.recorded).map id forget = deck.forget.stop d := by
  obtain ⟨engine, ⟨status, file, positionMs, durationMs⟩, world⟩ := deck
  cases engine with
  | none => cases status <;> rfl
  | some e =>
    simp only [stop, forget, Option.map_some, Device.recorded_stop]
    cases d.stop e.2 world.1 with
    | mk result world => cases status <;> cases result <;> rfl

theorem poll_forget : (deck.poll d.recorded).map id forget = deck.forget.poll d := by
  obtain ⟨engine, ⟨status, file, positionMs, durationMs⟩, world⟩ := deck
  cases engine with
  | none => cases status <;> rfl
  | some e =>
    cases status with
    | idle => rfl
    | paused => rfl
    | playing =>
      simp only [poll, forget, Option.map_some]
      exact apply_ite (Prod.map id forget) _ _ _

theorem operate_forget (tree : FileTree) (operation : Operation) :
    (deck.operate d.recorded tree operation).map id forget =
      deck.forget.operate d tree operation := by
  cases operation with
  | play source => exact deck.play_forget d tree source
  | playFrom source ask => exact deck.playFrom_forget d tree source ask
  | pause => exact deck.pause_forget d
  | resume source => exact deck.resume_forget d tree source
  | stop => exact deck.stop_forget d
  | reset => exact congrArg (Prod.mk _) (deck.reset_forget d)

theorem serve_forget (request : Request) :
    (deck.serve d.recorded request).forget = deck.forget.serve d request := by
  cases request with
  | poll =>
    change (deck.poll d.recorded).2.forget = (deck.forget.poll d).2
    rw [← deck.poll_forget d, Prod.map_snd]
  | operate tree operation =>
    change (deck.operate d.recorded tree operation).2.forget =
      (deck.forget.operate d tree operation).2
    rw [← deck.operate_forget d tree operation, Prod.map_snd]

theorem serveAll_forget (requests : List Request) :
    (deck.serveAll d.recorded requests).forget = deck.forget.serveAll d requests := by
  induction requests generalizing deck with
  | nil => rfl
  | cons request rest ih =>
    have first := deck.serve_forget d request
    have later := ih (deck.serve d.recorded request)
    rw [first] at later
    exact later

/-- The calls that a deck makes form complete sessions. Each engine that it obtained was stopped
    once, but for the one that it holds, which was not stopped. Nothing is asked of an engine after
    its stop, all engines obtained before are stopped when another one is asked for, and never is
    more than one open. -/
theorem calls_form_complete_sessions (d : Device World Engine) (world : World)
    (requests : List Request) :
    let deck : RecordedDeck World Engine := serveAll d.recorded (.empty (world, 0, [])) requests
    let calls := deck.world.2.2
    deck.forget = serveAll d (.empty world) requests ∧
    (∀ e, deck.engine = some e → Call.Obtains calls e.1) ∧
    (∀ i, Call.Obtains calls i →
      calls.count (.stop i) = if deck.engine.map Prod.fst = some i then 0 else 1) ∧
    (∀ (before : List (Call Nat)) (i : Nat) (after : List (Call Nat)),
      calls = before ++ .stop i :: after → ∀ call ∈ after, call.engine? ≠ some i) ∧
    (∀ (before : List (Call Nat)) (path : Path) (result : Option Nat) (after : List (Call Nat)),
      calls = before ++ .load path result :: after →
        ∀ i, Call.Obtains before i → .stop i ∈ before) ∧
    ∀ before after : List (Call Nat), calls = before ++ after →
      ∀ i j, Call.LeavesOpen before i → Call.LeavesOpen before j → i = j := by
  intro deck calls
  have fresh : (empty (world, 0, []) : RecordedDeck World Engine).Kept Device.Logged := Sessions.nil
  have sessions : Sessions calls deck.world.2.1 (deck.engine.map Prod.fst) :=
    serveAll_kept d.recorded_keeps fresh requests
  refine ⟨serveAll_forget d _ requests, ?_, ?_, ?_, ?_, ?_⟩
  · intro e held
    exact (sessions.obtains_iff e.1).2 (sessions.current_lt (by rw [held]; rfl))
  · intro i obtained
    rw [sessions.count_stop i]
    have bound := (sessions.obtains_iff i).1 obtained
    by_cases here : deck.engine.map Prod.fst = some i
    · simp [here]
    · simp [here, bound]
  -- A call after the stop would be one to the engine that is open then, which was not stopped.
  · intro before i after split call member its
    obtain ⟨between, rest, rfl⟩ := List.append_of_mem member
    rw [split, ← List.cons_append, ← List.append_assoc] at sessions
    obtain ⟨m, shorter⟩ := sessions.at_call
    rw [its] at shorter
    exact shorter.stop_not_mem (by simp)
  · intro before path result after split i obtained
    rw [split] at sessions
    obtain ⟨m, shorter⟩ := sessions.at_call
    exact shorter.stop_mem obtained (by simp [Call.engine?])
  · rintro before after split i j ⟨first, unstopped⟩ ⟨second, unstopped'⟩
    rw [split] at sessions
    obtain ⟨m, current, shorter⟩ := sessions.of_append
    have here : current = some i := by
      by_contra closed
      exact unstopped (shorter.stop_mem first closed)
    have there : current = some j := by
      by_contra closed
      exact unstopped' (shorter.stop_mem second closed)
    exact Option.some.inj (here.symm.trans there)

end Deck

end ScoreDesk.Transport
