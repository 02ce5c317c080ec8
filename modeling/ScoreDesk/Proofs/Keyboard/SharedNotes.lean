import Mathlib
import ScoreDesk.Proofs.Keyboard.ChordGroups
import ScoreDesk.Proofs.Keyboard.DetachedNotes
import ScoreDesk.Proofs.Runs

namespace ScoreDesk.Keyboard.Chord

inductive Call where
  | key (event : KeyEvent) (chords : Bool)
  | reset

def serve (c : Chord) : Call → Chord
  | .key event chords => (c.process event.note event.isPress chords).2
  | .reset => .empty

def serveAll (c : Chord) (calls : List Call) : Chord :=
  calls.foldl serve c

/-- A note is held down and released at once. -/
def Shares (c : Chord) (note : Nat) : Prop :=
  note ∈ c.active ∧ note ∈ c.released

def Call.PressesAlone (note : Nat) (call : Call) : Prop :=
  ∃ velocity, call = .key (.press note velocity) false

/-- A key event of another note, with chords. -/
def Call.Spares (note : Nat) (call : Call) : Prop :=
  ∃ event, call = .key event true ∧ event.note ≠ note

theorem not_shares_empty (note : Nat) : ¬ Chord.empty.Shares note :=
  fun shared => NoteSet.not_mem_empty note shared.1

theorem shares_press_alone {c : Chord} {key note : Nat} :
    (c.process key true false).2.Shares note ↔ note = key ∧ note ∈ c.released := by
  simp [Shares, process_press_alone]

theorem shares_press {c : Chord} {key note : Nat} :
    (c.process key true true).2.Shares note ↔ c.Shares note ∧ key ≠ note := by
  simp only [Shares, process, NoteSet.mem_insert, NoteSet.mem_erase]
  constructor
  · rintro ⟨rfl | active, released, other⟩
    · exact absurd rfl other
    · exact ⟨⟨active, released⟩, other.symm⟩
  · rintro ⟨⟨active, released⟩, other⟩
    exact ⟨.inr active, released, other.symm⟩

theorem shares_release {c : Chord} {key note : Nat} :
    (c.process key false true).2.Shares note ↔ c.Shares note ∧ key ≠ note := by
  cases last : (c.active.erase key).isEmpty with
  | true =>
    rw [process_last last]
    refine iff_of_false (fun shared => NoteSet.not_mem_empty note shared.2) ?_
    -- A shared note of another key would still be held.
    rintro ⟨⟨active, _⟩, other⟩
    have held : note ∈ c.active.erase key := NoteSet.mem_erase.2 ⟨active, other.symm⟩
    have none := NoteSet.isEmpty_iff.1 last
    change note ∈ (c.active.erase key).notes at held
    rw [none] at held
    exact List.not_mem_nil held
  | false =>
    rw [process_more last]
    simp only [Shares, NoteSet.mem_insert, NoteSet.mem_erase]
    constructor
    · rintro ⟨⟨active, other⟩, rfl | released⟩
      · exact absurd rfl other
      · exact ⟨⟨active, released⟩, other.symm⟩
    · rintro ⟨⟨active, released⟩, other⟩
      exact ⟨⟨active, other.symm⟩, .inr released⟩

/-- A press without chords of a released note makes it shared; then only key events of other notes
    with chords leave it so. -/
theorem shares_serve {c : Chord} {call : Call} {note : Nat} :
    (c.serve call).Shares note ↔
      (call.PressesAlone note ∧ note ∈ c.released) ∨ (c.Shares note ∧ call.Spares note) := by
  cases call with
  | reset => simp [serve, not_shares_empty, Call.PressesAlone, Call.Spares]
  | key event chords =>
    cases chords with
    | true =>
      have same : (c.serve (.key event true)).Shares note ↔ c.Shares note ∧ event.note ≠ note := by
        cases event with
        | press key velocity => exact shares_press
        | release key => exact shares_release
      rw [same]
      simp [Call.PressesAlone, Call.Spares]
    | false =>
      cases event with
      | press key velocity =>
        have same : (c.serve (.key (.press key velocity) false)).Shares note ↔
            note = key ∧ note ∈ c.released := shares_press_alone
        rw [same]
        simp [Call.PressesAlone, Call.Spares, eq_comm]
      | release key =>
        have cleared : c.serve (.key (.release key) false) = .empty := by
          simp [serve, KeyEvent.note, KeyEvent.isPress, process_release_alone]
        simp [cleared, not_shares_empty, Call.PressesAlone, Call.Spares]

/-- With and without chords in any order, a note is held down and released at once exactly since a
    press without chords of a note that was released with chords and not yet written, as long as
    only other keys follow, with chords. -/
theorem shared_iff_pressed_alone_while_released (calls : List Call) (note : Nat) :
    let after := empty.serveAll calls
    (note ∈ after.active ∧ note ∈ after.released) ↔
      ∃ before velocity later, calls = before ++ .key (.press note velocity) false :: later ∧
        note ∈ (empty.serveAll before).released ∧
        ∀ call ∈ later, ∃ event, call = .key event true ∧ event.note ≠ note := by
  intro after
  have causes := @foldl_iff_last_cause _ _ serve empty (fun c => c.Shares note)
    (fun c call => call.PressesAlone note ∧ note ∈ c.released) (fun call => call.Spares note)
    (not_shares_empty note) calls fun _ _ _ => shares_serve
  refine causes.trans ⟨?_, ?_⟩
  · rintro ⟨before, call, later, split, ⟨⟨velocity, rfl⟩, released⟩, spared⟩
    exact ⟨before, velocity, later, split, released, spared⟩
  · rintro ⟨before, velocity, later, split, released, spared⟩
    exact ⟨before, _, later, split, ⟨⟨velocity, rfl⟩, released⟩, spared⟩

/-- The first key of a chord of two is released and then pressed again without chords. -/
theorem pressed_again_alone_is_shared :
    let after := empty.serveAll [.key (.press 60 90) true, .key (.press 64 90) true,
      .key (.release 60) true, .key (.press 60 90) false]
    60 ∈ after.active ∧ 60 ∈ after.released := by
  decide

end ScoreDesk.Keyboard.Chord
