import Mathlib
import ScoreDesk.Proofs.Smf.TimelineOrder

namespace ScoreDesk.Smf

def placedTempo? : Nat × Event → Option TempoChange
  | (tick, ⟨_, .tempo usPerBeat⟩) => some ⟨tick, usPerBeat⟩
  | _ => none

def withDefault (tempos : List TempoChange) : List TempoChange :=
  if tempos.head?.any (·.tick = 0) then tempos else defaultTempo :: tempos

theorem withDefault_cases (tempos : List TempoChange) :
    (∃ first rest, tempos = first :: rest ∧ first.tick = 0 ∧ withDefault tempos = tempos) ∨
      withDefault tempos = defaultTempo :: tempos := by
  unfold withDefault
  cases tempos with
  | nil => exact .inr rfl
  | cons first rest =>
    by_cases once : first.tick = 0
    · exact .inl ⟨first, rest, rfl, once, by simp [once]⟩
    · exact .inr (by simp [once])

namespace File

def tempoEvents (f : File) : List TempoChange :=
  f.tracks.flatMap fun track => (placed track).filterMap placedTempo?

/-- The tempos in the order of their ticks. Those at one tick stand as they do in the file. -/
def tempos (f : File) : List TempoChange :=
  f.tempoEvents.mergeSort fun a b => a.tick ≤ b.tick

theorem tempos_isStableSort (f : File) : IsStableSort TempoChange.tick f.tempoEvents f.tempos :=
  mergeSort_isStableSort TempoChange.tick f.tempoEvents

theorem tempoEvents_eq (f : File) : f.events.filterMap tempoChange? = f.tempoEvents := by
  rw [filterMap_events]
  unfold tempoEvents
  congr 1
  funext track
  congr 1
  funext ⟨tick, delta, kind⟩
  cases kind <;> rfl

/-- The tempo map of a file is its tempos in order, behind the default where it is needed. -/
theorem tempoChanges_eq (f : File) : f.tempoChanges = withDefault f.tempos := by
  have sorted : (defaultTempo :: f.events.filterMap tempoChange?).mergeSort
      (fun a b => a.tick ≤ b.tick) = defaultTempo :: f.tempos := by
    rw [tempoEvents_eq]
    exact mergeSort_cons_of_least TempoChange.tick fun _ _ => Nat.zero_le _
  unfold tempoChanges
  simp only [sorted]
  cases f.tempos with
  | nil => rfl
  | cons first rest => simp [withDefault]

end File

end ScoreDesk.Smf
