import Mathlib
import ScoreDesk.Proofs.Transport.WrittenTime
import ScoreDesk.Transport.Deck
import ScoreDesk.Transport.Script

namespace ScoreDesk.Transport

theorem not_blank_of_isDigit {c : Char} (digit : c.isDigit = true) : Text.isBlank c = false := by
  have bounds := Text.isDigit_iff.mp digit
  simp only [Text.isBlank, Bool.or_eq_false_iff, Bool.and_eq_false_iff, decide_eq_false_iff_not,
    beq_eq_false_iff_ne]
  omega

theorem Timestamp.visible (t : Timestamp) : ∀ c ∈ t.text, Text.isBlank c = false := by
  intro c member
  rcases List.mem_append.mp member with minute | later
  · exact not_blank_of_isDigit (t.minutes_digits c minute)
  · rcases List.mem_cons.mp later with rfl | second
    · rfl
    · exact not_blank_of_isDigit (t.seconds_digits c second)

theorem trimmed_display (ms : Nat) : Text.trimmed (display ms) = display ms := by
  have visible : ∀ c ∈ (display ms).toList, Text.isBlank c = false := by
    rw [toList_display]
    exact (Timestamp.ofSeconds _).visible
  rw [Text.trimmed, Text.trim_of_visible visible, String.ofList_toList]

theorem display_ne_empty (ms : Nat) : (display ms).isEmpty = false := by
  have colon : ':' ∈ (display ms).toList := by
    rw [toList_display]
    simp [Timestamp.text]
  by_contra empty
  rw [Bool.not_eq_false, String.isEmpty_iff] at empty
  rw [empty] at colon
  cases colon

/-- Why a length that was rounded up is no start time: it lies behind the end, or it is too long to
    be read. -/
def refusal (durationMs : Nat) : TransportError :=
  if roundedSeconds durationMs * 1000 < msLimit then
    .startBeyondEnd (display durationMs) (display durationMs)
  else .invalidTimestamp (display durationMs)

section Total

variable {durationMs : Nat}

theorem roundedSeconds_of_down (down : durationMs % 1000 < 500) :
    roundedSeconds durationMs = durationMs / 1000 := by
  rw [roundedSeconds_eq]
  omega

theorem lt_roundedSeconds_of_up (up : 500 ≤ durationMs % 1000) :
    durationMs < roundedSeconds durationMs * 1000 := by
  rw [roundedSeconds_eq]
  omega

/-- The answer that repeats what was shown for the length is read as that length in whole seconds,
    and has to lie within the length as it is. -/
theorem startTime_display (fits : durationMs < msLimit) :
    startTime durationMs (display durationMs) =
      if durationMs % 1000 < 500 then .ok (durationMs / 1000 * 1000)
      else .error (refusal durationMs) := by
  unfold startTime
  simp only [trimmed_display, display_ne_empty, Bool.false_eq_true, ↓reduceIte,
    parseDisplay_display]
  by_cases down : durationMs % 1000 < 500
  · have rounded := roundedSeconds_of_down down
    have room : roundedSeconds durationMs * 1000 < msLimit := by omega
    have within : ¬ durationMs < roundedSeconds durationMs * 1000 := by omega
    rw [if_pos room, if_pos down, ← rounded]
    exact if_neg within
  · have beyond := lt_roundedSeconds_of_up (Nat.not_lt.mp down)
    rw [if_neg down, refusal]
    split
    · exact if_pos beyond
    · rfl

end Total

namespace Deck

variable {World Engine : Type} {d : Device World Engine} {deck loaded : Deck World Engine}
  {tree : FileTree} {source : Path}

theorem playFrom_shown_total (cues : deck.cue d tree source = (.ok (), loaded))
    (fits : loaded.state.durationMs < msLimit) :
    deck.playFrom d tree source some =
      if loaded.state.durationMs % 1000 < 500 then
        loaded.start d (loaded.state.durationMs / 1000 * 1000)
      else (.error (refusal loaded.state.durationMs), loaded.reset d) := by
  unfold playFrom startFrom
  simp only [cues, startTime_display fits]
  by_cases down : loaded.state.durationMs % 1000 < 500
  · simp only [if_pos down]
  · simp only [if_neg down]

/-- The total that is shown is taken for a start time exactly if it was not rounded up, by half a
    second or less. If it was, the file is not played, for the reason that the total is longer than
    itself, or no time. -/
theorem shown_total_accepted_iff_rounded_down {durationMs : Nat} (fits : durationMs < 2 ^ 64) :
    ((∃ ms, startTime durationMs (display durationMs) = .ok ms) ↔ durationMs % 1000 < 500) ∧
    (500 ≤ durationMs % 1000 →
      startTime durationMs (display durationMs) = .error (refusal durationMs)) ∧
    ∀ {World Engine : Type} (d : Device World Engine) (tree : FileTree) (source : Path)
      (deck loaded : Deck World Engine), deck.cue d tree source = (.ok (), loaded) →
      loaded.state.durationMs = durationMs →
      deck.playFrom d tree source some =
        if durationMs % 1000 < 500 then loaded.start d (durationMs / 1000 * 1000)
        else (.error (refusal durationMs), loaded.reset d) := by
  have answered := startTime_display fits
  refine ⟨⟨?_, fun down => ?_⟩, fun up => ?_, ?_⟩
  · rintro ⟨ms, accepted⟩
    by_contra up
    rw [answered, if_neg up] at accepted
    cases accepted
  · exact ⟨_, by rw [answered, if_pos down]⟩
  · rw [answered, if_neg (Nat.not_lt.mpr up)]
  · rintro World Engine d tree source deck loaded cues rfl
    exact playFrom_shown_total cues fits

theorem whole_total_accepted :
    let tree : FileTree := ⟨[], [(["score.midi"], .file [])]⟩
    let deck : Deck Script Unit := .empty { durationMs := 90000 }
    let played := deck.playFrom Script.device tree ⟨"score.ly"⟩ some
    90000 < 2 ^ 64 ∧ (∃ ms, startTime 90000 (display 90000) = .ok ms) ∧
      played.1 = .ok () ∧ played.2.state.positionMs = 90000 := by
  intro tree deck played
  let cued := deck.cue Script.device tree ⟨"score.ly"⟩
  have ok : cued.1 = .ok () := by decide +kernel
  have total : cued.2.state.durationMs = 90000 := by decide +kernel
  obtain ⟨accepted, -, plays⟩ :=
    shown_total_accepted_iff_rounded_down (show 90000 < 2 ^ 64 by decide)
  have starts := plays Script.device tree ⟨"score.ly"⟩ deck cued.2 (Prod.ext ok rfl) total
  have started : (cued.2.start Script.device 90000).1 = .ok () ∧
      (cued.2.start Script.device 90000).2.state.positionMs = 90000 := by decide +kernel
  refine ⟨by decide, accepted.mpr (by decide), ?_⟩
  rw [show played = _ from starts]
  exact started

/-- A second and a half is shown as two seconds, which are longer than it. -/
theorem rounded_total_refused :
    let tree : FileTree := ⟨[], [(["score.midi"], .file [])]⟩
    let deck : Deck Script Unit := .empty { durationMs := 1500 }
    display 1500 = "0:02" ∧
      startTime 1500 (display 1500) = .error (.startBeyondEnd "0:02" "0:02") ∧
      (deck.playFrom Script.device tree ⟨"score.ly"⟩ some).1 =
        .error (.startBeyondEnd "0:02" "0:02") := by
  decide +kernel

end Deck

end ScoreDesk.Transport
