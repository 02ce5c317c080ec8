import Mathlib
import ScoreDesk.Keyboard.Session
import ScoreDesk.Proofs.NoteNames
import ScoreDesk.Proofs.Runs

namespace ScoreDesk

namespace NoteSet

def toFinset (s : NoteSet) : Finset Nat := s.notes.toFinset

@[simp] theorem mem_toFinset {s : NoteSet} {note : Nat} : note ∈ s.toFinset ↔ note ∈ s :=
  List.mem_toFinset

@[simp] theorem toFinset_insert (s : NoteSet) (note : Nat) :
    (s.insert note).toFinset = {note} ∪ s.toFinset := by
  ext m
  simp

@[simp] theorem toFinset_erase (s : NoteSet) (note : Nat) :
    (s.erase note).toFinset = s.toFinset.erase note := by
  ext m
  simp [and_comm]

theorem isEmpty_iff_toFinset {s : NoteSet} : s.isEmpty = true ↔ s.toFinset = ∅ := by
  rw [isEmpty_iff]
  exact (List.toFinset_eq_empty_iff s.notes).symm

end NoteSet

namespace Keyboard

def mentionedIn (events : List KeyEvent) : Finset Nat :=
  (events.map KeyEvent.note).toFinset

theorem mentionedIn_append_singleton (events : List KeyEvent) (event : KeyEvent) :
    mentionedIn (events ++ [event]) = {event.note} ∪ mentionedIn events := by
  simp [mentionedIn, List.toFinset_append, Finset.union_comm]

def IsDown (note : Nat) (events : List KeyEvent) : Prop :=
  ∃ before velocity after, events = before ++ .press note velocity :: after ∧
    ∀ event ∈ after, event.note ≠ note

theorem not_isDown_nil (note : Nat) : ¬ IsDown note [] := by
  rintro ⟨before, velocity, after, split, _⟩
  simp at split

theorem isDown_append_singleton {note : Nat} {events : List KeyEvent} {event : KeyEvent} :
    IsDown note (events ++ [event]) ↔
      (∃ velocity, event = .press note velocity) ∨ event.note ≠ note ∧ IsDown note events := by
  constructor
  · rintro ⟨before, velocity, after, split, later⟩
    rcases split_append_singleton split with ⟨rfl, rfl, rfl⟩ | ⟨between, rfl, rfl⟩
    · exact .inl ⟨velocity, rfl⟩
    · refine .inr ⟨later event (by simp), before, velocity, between, rfl, fun e member => ?_⟩
      exact later e (by simp [member])
  · rintro (⟨velocity, rfl⟩ | ⟨other, before, velocity, after, rfl, later⟩)
    · exact ⟨events, velocity, [], rfl, by simp⟩
    · refine ⟨before, velocity, after ++ [event], by simp, fun e member => ?_⟩
      rcases List.mem_append.1 member with member | member
      · exact later e member
      · rw [List.mem_singleton] at member
        exact member ▸ other

/-- The keys that two hands hold, and the notes mentioned since their last chord was complete. -/
structure Hands where
  held : Finset Nat
  mentioned : Finset Nat

namespace Hands

def empty : Hands := ⟨∅, ∅⟩

/-- A release that leaves no key held completes a chord of all that was mentioned. -/
def step (h : Hands) : KeyEvent → Option (Finset Nat) × Hands
  | .press note _ => (none, ⟨{note} ∪ h.held, {note} ∪ h.mentioned⟩)
  | .release note =>
    let held := h.held.erase note
    let mentioned := {note} ∪ h.mentioned
    if held = ∅ then (some mentioned, empty) else (none, ⟨held, mentioned⟩)

def play (h : Hands) : List KeyEvent → List (Option (Finset Nat)) × Hands
  | [] => ([], h)
  | event :: rest =>
    let (group, h) := h.step event
    let (groups, h) := h.play rest
    (group :: groups, h)

theorem play_append_singleton (h : Hands) (events : List KeyEvent) (event : KeyEvent) :
    h.play (events ++ [event]) =
      ((h.play events).1 ++ [((h.play events).2.step event).1],
        ((h.play events).2.step event).2) := by
  induction events generalizing h with
  | nil => rfl
  | cons first rest ih => simp only [List.cons_append, play, ih]

theorem mem_held_step {h : Hands} {event : KeyEvent} {note : Nat} :
    note ∈ (h.step event).2.held ↔
      (∃ velocity, event = .press note velocity) ∨ event.note ≠ note ∧ note ∈ h.held := by
  cases event with
  | press key velocity =>
    by_cases same : note = key
    · simp [step, same]
    · simp [step, KeyEvent.note, same, Ne.symm same]
  | release key =>
    have kept : (h.step (.release key)).2.held = h.held.erase key := by
      unfold step
      dsimp only
      split
      · rename_i free
        exact free.symm
      · rfl
    simp [kept, KeyEvent.note, eq_comm]

theorem mem_held_iff (events : List KeyEvent) (note : Nat) :
    note ∈ (empty.play events).2.held ↔ IsDown note events := by
  induction events using List.reverseRecOn with
  | nil => exact iff_of_false (Finset.notMem_empty note) (not_isDown_nil note)
  | append_singleton events event ih =>
    rw [play_append_singleton, mem_held_step, isDown_append_singleton, ih]

theorem step_cases (h : Hands) (event : KeyEvent) :
    (h.step event).1 = none ∧ (h.step event).2.mentioned = {event.note} ∪ h.mentioned ∨
      h.step event = (some ({event.note} ∪ h.mentioned), empty) := by
  cases event with
  | press note velocity => exact .inl ⟨rfl, rfl⟩
  | release note =>
    unfold step
    dsimp only
    split
    · exact .inr rfl
    · exact .inl ⟨rfl, rfl⟩

theorem isSome_step_iff (h : Hands) (event : KeyEvent) :
    (h.step event).1.isSome ↔ event.isPress = false ∧ (h.step event).2.held = ∅ := by
  cases event with
  | press note velocity => simp [step, KeyEvent.isPress]
  | release note =>
    unfold step
    dsimp only
    split
    · simp [KeyEvent.isPress, empty]
    · rename_i busy
      simpa [KeyEvent.isPress] using busy

theorem getElem?_play (h : Hands) (before after : List KeyEvent) (event : KeyEvent) :
    (h.play (before ++ event :: after)).1[before.length]? =
      some ((h.play before).2.step event).1 := by
  induction before generalizing h with
  | nil => rfl
  | cons first rest ih => exact ih _

theorem completes_iff {events before after : List KeyEvent} {event : KeyEvent}
    (split : events = before ++ event :: after) :
    (∃ group, (empty.play events).1[before.length]? = some (some group)) ↔
      event.isPress = false ∧ ∀ note, ¬ IsDown note (before ++ [event]) := by
  have held (note : Nat) : note ∈ ((empty.play before).2.step event).2.held ↔
      IsDown note (before ++ [event]) := by
    rw [← mem_held_iff, play_append_singleton]
  rw [split, getElem?_play]
  simp only [Option.some.injEq, ← Option.isSome_iff_exists, isSome_step_iff,
    Finset.eq_empty_iff_forall_notMem, held]

def stretchGroups (stretch : List KeyEvent) : List (Option (Finset Nat)) :=
  List.replicate (stretch.length - 1) none ++ [some (mentionedIn stretch)]

/-- Events fall into stretches that each complete one chord of all notes in it, and a rest. -/
theorem play_stretches (events : List KeyEvent) :
    ∃ (stretches : List (List KeyEvent)) (pending : List KeyEvent),
      events = stretches.flatten ++ pending ∧
      (empty.play events).1 =
        stretches.flatMap stretchGroups ++ List.replicate pending.length none ∧
      (empty.play events).2.mentioned = mentionedIn pending := by
  induction events using List.reverseRecOn with
  | nil => exact ⟨[], [], rfl, rfl, rfl⟩
  | append_singleton events event ih =>
    obtain ⟨stretches, pending, split, groups, mentioned⟩ := ih
    rw [play_append_singleton, groups]
    -- The last event joins those that wait for a chord, or closes their stretch.
    rcases step_cases (empty.play events).2 event with ⟨waits, grows⟩ | completes
    · refine ⟨stretches, pending ++ [event], by rw [split, List.append_assoc], ?_, ?_⟩
      · rw [waits, List.length_append, List.append_assoc, List.length_singleton,
          List.replicate_succ']
      · rw [grows, mentioned, mentionedIn_append_singleton]
    · refine ⟨stretches ++ [pending ++ [event]], [], by simp [split], ?_, ?_⟩
      · have last : stretchGroups (pending ++ [event]) =
            List.replicate pending.length none ++ [((empty.play events).2.step event).1] := by
          simp [stretchGroups, completes, mentioned, mentionedIn_append_singleton]
        simp [last, List.append_assoc]
      · rw [completes]
        rfl

end Hands

namespace Chord

def play (c : Chord) : List KeyEvent → List (Option NoteSet) × Chord
  | [] => ([], c)
  | event :: rest =>
    let (group, c) := c.process event.note event.isPress true
    let (groups, c) := c.play rest
    (group :: groups, c)

/-- A chord is what hands hold, and what they mentioned and hold no longer. -/
structure Follows (c : Chord) (h : Hands) : Prop where
  active : c.active.toFinset = h.held
  released : c.released.toFinset = h.mentioned \ h.held

theorem process_last {c : Chord} {note : Nat} (last : (c.active.erase note).isEmpty = true) :
    c.process note false true =
      (some (c.released.insert note), ⟨c.active.erase note, .empty⟩) := by
  simp [process, last]

theorem process_more {c : Chord} {note : Nat} (more : (c.active.erase note).isEmpty = false) :
    c.process note false true = (none, ⟨c.active.erase note, c.released.insert note⟩) := by
  simp [process, more]

theorem Follows.step {c : Chord} {h : Hands} (follows : c.Follows h) (event : KeyEvent) :
    (c.process event.note event.isPress true).1.map NoteSet.toFinset = (h.step event).1 ∧
      (c.process event.note event.isPress true).2.Follows (h.step event).2 := by
  have active := follows.active
  have released := follows.released
  cases event with
  | press note velocity =>
    refine ⟨rfl, ?_, ?_⟩
    · simp [process, Hands.step, KeyEvent.isPress, KeyEvent.note, active]
    · ext m
      simp [process, Hands.step, KeyEvent.isPress, KeyEvent.note, released]
      tauto
  | release note =>
    have left : (c.active.erase note).toFinset = h.held.erase note := by
      rw [NoteSet.toFinset_erase, active]
    have free := NoteSet.isEmpty_iff_toFinset (s := c.active.erase note)
    rw [left] at free
    dsimp only [KeyEvent.note, KeyEvent.isPress]
    cases last : (c.active.erase note).isEmpty with
    | true =>
      have held := free.1 last
      have played : h.step (.release note) = (some ({note} ∪ h.mentioned), .empty) := if_pos held
      rw [played, process_last last]
      refine ⟨congrArg some ?_, left.trans held, rfl⟩
      ext m
      -- No other key was down, so what was released before is all else that was mentioned.
      have only : m ∈ h.held → m = note := by
        intro member
        by_contra other
        have kept : m ∈ h.held.erase note := Finset.mem_erase.2 ⟨other, member⟩
        rw [held] at kept
        exact Finset.notMem_empty m kept
      simp [released]
      tauto
    | false =>
      have held : ¬ h.held.erase note = ∅ := fun empty => by simp [free.2 empty] at last
      have played : h.step (.release note) = (none, ⟨h.held.erase note, {note} ∪ h.mentioned⟩) :=
        if_neg held
      rw [played, process_more last]
      refine ⟨rfl, left, ?_⟩
      ext m
      simp [released]
      tauto

theorem Follows.play {c : Chord} {h : Hands} (follows : c.Follows h) (events : List KeyEvent) :
    (c.play events).1.map (Option.map NoteSet.toFinset) = (h.play events).1 ∧
      (c.play events).2.Follows (h.play events).2 := by
  induction events generalizing c h with
  | nil => exact ⟨rfl, follows⟩
  | cons event later ih =>
    obtain ⟨group, after⟩ := follows.step event
    obtain ⟨groups, rest⟩ := ih after
    exact ⟨congrArg₂ List.cons group groups, rest⟩

theorem empty_follows : Chord.empty.Follows Hands.empty :=
  ⟨rfl, rfl⟩

/-- With chords the groups are those that the hands complete, whatever keys are pressed and
    released: a group at each release that leaves no key down, of all notes mentioned since the
    group before. In between, the active notes are the keys that are down, and the released ones are the other
    notes mentioned. -/
theorem groups_follow_hands (events : List KeyEvent) :
    let played := Chord.empty.play events
    let hands := Hands.empty.play events
    played.1.map (Option.map NoteSet.toFinset) = hands.1 ∧
    played.2.active.toFinset = hands.2.held ∧
    played.2.released.toFinset = hands.2.mentioned \ hands.2.held ∧
    (∀ note, note ∈ hands.2.held ↔ IsDown note events) ∧
    (∀ before event after, events = before ++ event :: after →
      ((∃ group, hands.1[before.length]? = some (some group)) ↔
        event.isPress = false ∧ ∀ note, ¬ IsDown note (before ++ [event]))) ∧
    ∃ (stretches : List (List KeyEvent)) (pending : List KeyEvent),
      events = stretches.flatten ++ pending ∧
      hands.1 =
        stretches.flatMap Hands.stretchGroups ++ List.replicate pending.length none ∧
      hands.2.mentioned = mentionedIn pending := by
  intro played hands
  obtain ⟨groups, follows⟩ := empty_follows.play events
  exact ⟨groups, follows.active, follows.released, Hands.mem_held_iff events,
    fun before event after split => Hands.completes_iff split, Hands.play_stretches events⟩

-- The last release but one is of a key that was never pressed.
example :
    (Chord.empty.play [.press 60 90, .press 64 90, .release 60, .release 67, .release 64]).1 =
      [none, none, none, none, some (.ofList [60, 64, 67])] := by
  decide

end Chord

end Keyboard

end ScoreDesk
