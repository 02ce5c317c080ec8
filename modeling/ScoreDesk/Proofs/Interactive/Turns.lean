import Mathlib
import ScoreDesk.Interactive.Console
import ScoreDesk.Proofs.Runs
import ScoreDesk.Proofs.Transport.LateLooks

namespace ScoreDesk.Transport.Monitor

variable {World Engine : Type}

theorem prepare_publications (m : Monitor World Engine) (operation : Operation) :
    (m.prepare operation).publications = m.publications ∧
      (m.prepare operation).published = m.published := by
  have cancelled : m.cancelPolling.publications = m.publications ∧
      m.cancelPolling.published = m.published := by
    unfold cancelPolling
    split <;> exact ⟨rfl, rfl⟩
  cases operation <;> first | exact ⟨rfl, rfl⟩ | exact cancelled

variable (d : Device World Engine) {m : Monitor World Engine} {i : Nat}

theorem look_of_awaits (awaits : m.Awaits i) :
    let found := m.deck.poll d
    let pollers := m.pollers.modify i fun p => { p with phase := found.1.phase }
    m.look d i = { m with deck := found.2, pollers }.publish found.1 := by
  obtain ⟨⟨due, cancelled, phase⟩, here, rfl⟩ := awaits
  unfold look
  rw [here]
  rfl

theorem look_of_not_awaits (waits : ¬ m.Awaits i) : m.look d i = m := by
  rcases m.look_cases d i with ⟨awaits, -⟩ | ⟨-, same⟩
  · exact absurd awaits waits
  · exact same

end ScoreDesk.Transport.Monitor

namespace ScoreDesk.Interactive

open Transport

variable {World Engine : Type}

instance (stage : Stage) : Decidable (stage = .waiting) :=
  match stage with
  | .waiting => isTrue rfl
  | .deciding _ => isFalse nofun
  | .acting _ _ => isFalse nofun
  | .ended _ => isFalse nofun

instance (stage : Stage) (why : End) : Decidable (stage = .ended why) :=
  match stage with
  | .waiting => isFalse nofun
  | .deciding _ => isFalse nofun
  | .acting _ _ => isFalse nofun
  | .ended other => decidable_of_iff (other = why) (by simp)

/-- What happens next: the console hears a line, the lines come to an end, a command sees the state
    of the transport, its operation gets the deck, or the console reads the news; or a poller takes
    a step, time passes, or the world changes. -/
inductive Turn (World : Type) where
  | hear (line : String)
  | close
  | judge
  | act (tree : FileTree)
  | read
  | wake (i : Nat)
  | notice (i : Nat)
  | look (i : Nat)
  | wait (ms : Nat)
  | drift (change : World → World)

namespace Console

def turn (d : Device World Engine) (c : Console World Engine) : Turn World → Console World Engine
  | .hear line => if c.reading then c.hear line else c
  | .close => c.stopReading
  | .judge => c.judge
  | .act tree => c.act d tree
  | .read => c.look
  | .wake i => { c with monitor := c.monitor.wake i }
  | .notice i => { c with monitor := c.monitor.notice i }
  | .look i => { c with monitor := c.monitor.look d i }
  | .wait ms => { c with monitor := { c.monitor with now := c.monitor.now + ms } }
  | .drift change =>
    let deck := c.monitor.deck
    { c with monitor := { c.monitor with deck := { deck with world := change deck.world } } }

def run (d : Device World Engine) (c : Console World Engine) (turns : List (Turn World)) :
    Console World Engine :=
  turns.foldl (turn d) c

def asks (c : Console World Engine) (operation : Operation) : Prop :=
  ∃ command, c.stage = .acting command operation

variable (d : Device World Engine) (c : Console World Engine)

def Starts : Turn World → Prop
  | .act tree => ∃ operation, c.asks operation ∧ operation.starts = true ∧
      (c.monitor.perform d tree operation).1 = .ok ()
  | _ => False

/-- A poller that has the deck looks at it, or another operation is served and succeeds. -/
def Publishes : Turn World → Prop
  | .act tree => ∃ operation, c.asks operation ∧ operation.starts = false ∧
      (c.monitor.perform d tree operation).1 = .ok ()
  | .look i => c.monitor.Awaits i
  | _ => False

def Reads (t : Turn World) : Prop :=
  t = .read ∧ c.stage = .waiting

variable {d c}

theorem hear_cases (c : Console World Engine) (line : String) :
    (c.hear line).monitor = c.monitor ∧ (c.hear line).seen = c.seen ∧
      ((c.hear line).stage = c.stage ∨ ∃ command, (c.hear line).stage = .deciding command) := by
  unfold hear
  split
  · split
    · exact ⟨rfl, rfl, .inl rfl⟩
    · split
      · exact ⟨rfl, rfl, .inr ⟨_, rfl⟩⟩
      · exact ⟨rfl, rfl, .inl rfl⟩
  · exact ⟨rfl, rfl, .inl rfl⟩

theorem stopReading_stage (c : Console World Engine) : c.stopReading.stage = c.stage := by
  unfold stopReading
  split <;> rfl

theorem stopReading_of_waiting (waiting : c.stage = .waiting) :
    c.stopReading = { c with reading := false } := by
  rw [stopReading, waiting]

theorem judge_cases (c : Console World Engine) :
    (∃ command operation, c.stage = .deciding command ∧
        operation? c.source c.monitor.deck.state.status command = some operation ∧
        c.judge = { c with
          monitor := c.monitor.prepare operation, stage := .acting command operation }) ∨
      (∃ command, c.stage = .deciding command ∧
        operation? c.source c.monitor.deck.state.status command = none ∧
        c.judge = c.settle command) ∨
      (∀ command, c.stage ≠ .deciding command) ∧ c.judge = c := by
  unfold judge
  split
  · rename_i command deciding
    split
    · rename_i operation found
      exact .inl ⟨command, operation, deciding, found, rfl⟩
    · rename_i none
      exact .inr (.inl ⟨command, deciding, none, rfl⟩)
  · rename_i other
    exact .inr (.inr ⟨other, rfl⟩)

theorem act_cases (d : Device World Engine) (tree : FileTree) (c : Console World Engine) :
    (∃ command operation, c.stage = .acting command operation ∧
        (c.act d tree).monitor = (c.monitor.perform d tree operation).2 ∧
        (c.act d tree).stage = (if command = .quit then .ended .quit else .waiting) ∧
        (c.act d tree).seen = c.seen ∧ (c.act d tree).source = c.source) ∨
      (∀ operation, ¬ c.asks operation) ∧ c.act d tree = c := by
  unfold act
  split
  · rename_i command operation acting
    refine .inl ⟨command, operation, acting, ?_⟩
    split
    · rename_i monitor done
      rw [done]
      exact ⟨rfl, rfl, rfl, rfl⟩
    · rename_i e monitor done
      rw [done]
      exact ⟨rfl, rfl, rfl, rfl⟩
  · rename_i other
    refine .inr ⟨?_, rfl⟩
    rintro operation ⟨command, acting⟩
    exact other command operation acting

theorem look_cases (c : Console World Engine) :
    (c.stage = .waiting ∧ c.hasNews = true ∧ c.look.monitor = c.monitor ∧
        c.look.seen = c.monitor.publications ∧
        c.look.stage = (if c.monitor.published = .ended then .ended .finished else .waiting)) ∨
      (c.stage = .waiting → c.hasNews = false) ∧ c.look = c := by
  unfold look
  split
  · rename_i waiting
    split
    · rename_i news
      refine .inl ⟨waiting, news, ?_⟩
      dsimp only
      split <;> rename_i published <;> simp [published, write, waiting]
    · rename_i none
      exact .inr ⟨fun _ => by simpa using none, rfl⟩
  · rename_i busy
    exact .inr ⟨fun waiting => absurd waiting busy, rfl⟩

theorem asks_unique {operation other : Operation} (asks : c.asks operation) (also : c.asks other) :
    other = operation := by
  obtain ⟨command, acting⟩ := asks
  obtain ⟨command', acting'⟩ := also
  rw [acting] at acting'
  cases acting'
  rfl

theorem look_monitor (c : Console World Engine) : c.look.monitor = c.monitor := by
  rcases c.look_cases with ⟨-, -, same, -⟩ | ⟨-, same⟩ <;> rw [same]

theorem judge_monitor (c : Console World Engine) :
    (∃ operation, c.judge.monitor = c.monitor.prepare operation) ∨
      c.judge.monitor = c.monitor := by
  rcases c.judge_cases with ⟨_, operation, -, -, judged⟩ | ⟨_, -, -, judged⟩ | ⟨-, judged⟩ <;>
    rw [judged]
  · exact .inl ⟨operation, rfl⟩
  · exact .inr rfl
  · exact .inr rfl

theorem turn_hear_monitor (d : Device World Engine) (c : Console World Engine) (line : String) :
    (c.turn d (.hear line)).monitor = c.monitor := by
  unfold turn
  dsimp only
  split
  · exact (c.hear_cases line).1
  · rfl

theorem turn_close_monitor (d : Device World Engine) (c : Console World Engine) :
    (c.turn d .close).monitor = c.monitor := by
  unfold turn stopReading
  dsimp only
  split <;> rfl

section Publications

variable {m : Monitor World Engine} {tree : FileTree} {operation : Operation}

theorem perform_publishes (quiet : operation.starts = false)
    (ok : (m.perform d tree operation).1 = .ok ()) :
    (m.perform d tree operation).2.publications = m.publications + 1 := by
  obtain ⟨same, effect⟩ := m.perform_effect d tree operation
  rcases effect with ⟨⟨x, fails⟩, -⟩ | ⟨-, ⟨starts, -⟩ | ⟨-, left⟩ | ⟨-, left⟩⟩
  · rw [same, fails] at ok
    cases ok
  · rw [quiet] at starts
    cases starts
  · rw [left]
    exact congrArg (· + 1) (Monitor.prepare_publications _ .reset).1
  · rw [left]
    rfl

theorem perform_silent
    (silent : ¬ (operation.starts = false ∧ (m.perform d tree operation).1 = .ok ())) :
    (m.perform d tree operation).2.publications = m.publications ∧
      (m.perform d tree operation).2.published = m.published := by
  obtain ⟨same, effect⟩ := m.perform_effect d tree operation
  rcases effect with ⟨-, left⟩ | ⟨ok, ⟨-, left⟩ | ⟨rfl, -⟩ | ⟨rfl | rfl, -⟩⟩
  · rw [left]
    exact ⟨rfl, rfl⟩
  · rw [left]
    exact Monitor.prepare_publications _ .reset
  · exact absurd ⟨rfl, same.trans ok⟩ silent
  · exact absurd ⟨rfl, same.trans ok⟩ silent
  · exact absurd ⟨rfl, same.trans ok⟩ silent

end Publications

theorem publications_turn (d : Device World Engine) (c : Console World Engine) (t : Turn World) :
    c.Publishes d t ∧ (c.turn d t).monitor.publications = c.monitor.publications + 1 ∨
      ¬ c.Publishes d t ∧ (c.turn d t).monitor.publications = c.monitor.publications ∧
        (c.turn d t).monitor.published = c.monitor.published := by
  have of_same {t : Turn World} (same : (c.turn d t).monitor = c.monitor)
      (silent : ¬ c.Publishes d t) : ¬ c.Publishes d t ∧
        (c.turn d t).monitor.publications = c.monitor.publications ∧
        (c.turn d t).monitor.published = c.monitor.published := by
    rw [same]
    exact ⟨silent, rfl, rfl⟩
  cases t with
  | hear line => exact .inr (of_same (turn_hear_monitor d c line) id)
  | close => exact .inr (of_same (turn_close_monitor d c) id)
  | judge =>
    rcases c.judge_monitor with ⟨operation, prepared⟩ | same
    · refine .inr ⟨id, ?_⟩
      change c.judge.monitor.publications = _ ∧ c.judge.monitor.published = _
      rw [prepared]
      exact c.monitor.prepare_publications operation
    · exact .inr (of_same same id)
  | act tree =>
    change _ ∧ (c.act d tree).monitor.publications = _ ∨
      _ ∧ (c.act d tree).monitor.publications = _ ∧ (c.act d tree).monitor.published = _
    rcases c.act_cases d tree with ⟨command, operation, acting, left, -⟩ | ⟨idle, same⟩
    · rw [left]
      by_cases loud : operation.starts = false ∧ (c.monitor.perform d tree operation).1 = .ok ()
      · exact .inl ⟨⟨operation, ⟨command, acting⟩, loud⟩, perform_publishes loud.1 loud.2⟩
      · refine .inr ⟨?_, perform_silent loud⟩
        rintro ⟨other, asks, published⟩
        rw [asks_unique ⟨command, acting⟩ asks] at published
        exact loud published
    · rw [same]
      refine .inr ⟨?_, rfl, rfl⟩
      rintro ⟨operation, asks, -⟩
      exact idle operation asks
  | read => exact .inr (of_same c.look_monitor id)
  | look i =>
    change _ ∧ (c.monitor.look d i).publications = _ ∨
      _ ∧ (c.monitor.look d i).publications = _ ∧ (c.monitor.look d i).published = _
    by_cases awaits : c.monitor.Awaits i
    · rw [Monitor.look_of_awaits d awaits]
      exact .inl ⟨awaits, rfl⟩
    · rw [Monitor.look_of_not_awaits d awaits]
      exact .inr ⟨awaits, rfl, rfl⟩
  | wake i => exact .inr ⟨id, rfl, rfl⟩
  | notice i => exact .inr ⟨id, rfl, rfl⟩
  | wait ms => exact .inr ⟨id, rfl, rfl⟩
  | drift change => exact .inr ⟨id, rfl, rfl⟩

theorem not_reads {t : Turn World} (other : t ≠ .read) : ¬ c.Reads t :=
  fun reads => other reads.1

theorem seen_turn (d : Device World Engine) (c : Console World Engine) (t : Turn World) :
    c.Reads t ∧ (c.turn d t).seen = c.monitor.publications ∨
      ¬ c.Reads t ∧ (c.turn d t).seen = c.seen := by
  cases t with
  | hear line =>
    refine .inr ⟨not_reads nofun, ?_⟩
    unfold turn
    dsimp only
    split
    · exact (c.hear_cases line).2.1
    · rfl
  | close =>
    refine .inr ⟨not_reads nofun, ?_⟩
    unfold turn stopReading
    dsimp only
    split <;> rfl
  | judge =>
    refine .inr ⟨not_reads nofun, ?_⟩
    change c.judge.seen = _
    rcases c.judge_cases with ⟨command, operation, -, -, judged⟩ | ⟨command, -, -, judged⟩ |
      ⟨-, judged⟩ <;> rw [judged]
    rfl
  | act tree =>
    refine .inr ⟨not_reads nofun, ?_⟩
    change (c.act d tree).seen = _
    rcases c.act_cases d tree with ⟨-, -, -, -, -, seen, -⟩ | ⟨-, same⟩
    · exact seen
    · rw [same]
  | read =>
    change _ ∧ c.look.seen = _ ∨ _ ∧ c.look.seen = _
    rcases c.look_cases with ⟨waiting, -, -, seen, -⟩ | ⟨none, same⟩
    · exact .inl ⟨⟨rfl, waiting⟩, seen⟩
    · rw [same]
      by_cases waiting : c.stage = .waiting
      · have caught : c.seen = c.monitor.publications := by simpa [hasNews] using none waiting
        exact .inl ⟨⟨rfl, waiting⟩, caught⟩
      · exact .inr ⟨fun reads => waiting reads.2, rfl⟩
  | look i => exact .inr ⟨not_reads nofun, rfl⟩
  | wake i => exact .inr ⟨not_reads nofun, rfl⟩
  | notice i => exact .inr ⟨not_reads nofun, rfl⟩
  | wait ms => exact .inr ⟨not_reads nofun, rfl⟩
  | drift change => exact .inr ⟨not_reads nofun, rfl⟩

theorem seen_le_turn (d : Device World Engine) (t : Turn World)
    (behind : c.seen ≤ c.monitor.publications) :
    (c.turn d t).seen ≤ (c.turn d t).monitor.publications := by
  rcases c.seen_turn d t with ⟨-, seen⟩ | ⟨-, seen⟩ <;>
    rcases c.publications_turn d t with ⟨-, next⟩ | ⟨-, next, -⟩ <;> omega

theorem seen_le_run (d : Device World Engine) (behind : c.seen ≤ c.monitor.publications)
    (turns : List (Turn World)) :
    (c.run d turns).seen ≤ (c.run d turns).monitor.publications := by
  induction turns generalizing c with
  | nil => exact behind
  | cons t rest ih => exact ih (seen_le_turn d t behind)

theorem hasNews_turn (d : Device World Engine) (t : Turn World)
    (behind : c.seen ≤ c.monitor.publications) :
    (c.turn d t).hasNews = true ↔ c.Publishes d t ∨ c.hasNews = true ∧ ¬ c.Reads t := by
  simp only [hasNews, bne_iff_ne]
  rcases c.publications_turn d t with ⟨loud, next⟩ | ⟨silent, next, -⟩ <;>
    rcases c.seen_turn d t with ⟨reads, seen⟩ | ⟨free, seen⟩
  · simp only [loud, true_or, iff_true]
    omega
  · simp only [loud, true_or, iff_true]
    omega
  · simp [silent, reads, next, seen]
  · simp [silent, free, next, seen]

end Console

end ScoreDesk.Interactive
