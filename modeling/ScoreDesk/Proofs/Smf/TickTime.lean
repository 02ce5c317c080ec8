import Mathlib
import ScoreDesk.Smf.Tempo

namespace ScoreDesk.Smf

theorem addTime_le_limit (a b : Nat) : addTime a b ≤ timeLimit := by
  unfold addTime
  omega

theorem le_addTime (a b : Nat) (bound : a ≤ timeLimit) : a ≤ addTime a b := by
  unfold addTime
  omega

theorem addTime_mono {a b c d : Nat} (left : a ≤ b) (right : c ≤ d) :
    addTime a c ≤ addTime b d := by
  unfold addTime
  omega

theorem mulTime_mono {a b : Nat} (c : Nat) (h : a ≤ b) : mulTime a c ≤ mulTime b c := by
  have product := Nat.mul_le_mul_right c h
  unfold mulTime
  omega

theorem segmentEnd_mono {tick later : Nat} (h : tick ≤ later) (rest : List TempoChange) :
    segmentEnd tick rest ≤ segmentEnd later rest := by
  cases rest with
  | nil => exact h
  | cons next rest =>
    simp only [segmentEnd]
    omega

theorem le_usUntil (ticksPerBeat tick us : Nat) (changes : List TempoChange)
    (bound : us ≤ timeLimit) : us ≤ usUntil ticksPerBeat tick us changes := by
  induction changes generalizing us with
  | nil => exact Nat.le_refl us
  | cons change rest ih =>
    simp only [usUntil]
    split
    · exact Nat.le_refl us
    · exact Nat.le_trans (le_addTime _ _ bound) (ih _ (addTime_le_limit _ _))

theorem usUntil_mono (ticksPerBeat : Nat) (changes : List TempoChange) {tick later us more : Nat}
    (ticks : tick ≤ later) (sums : us ≤ more) (bound : more ≤ timeLimit) :
    usUntil ticksPerBeat tick us changes ≤ usUntil ticksPerBeat later more changes := by
  induction changes generalizing us more with
  | nil => exact sums
  | cons change rest ih =>
    by_cases here : tick ≤ change.tick
    · have stays : usUntil ticksPerBeat tick us (change :: rest) = us := by
        simp only [usUntil, here, ↓reduceIte]
      rw [stays]
      exact Nat.le_trans sums (le_usUntil _ _ _ _ bound)
    · have beyond : ¬ later ≤ change.tick := by omega
      simp only [usUntil, here, beyond, ↓reduceIte]
      apply ih _ (addTime_le_limit _ _)
      apply addTime_mono sums
      apply Nat.div_le_div_right
      apply mulTime_mono
      have ends := segmentEnd_mono ticks rest
      omega

theorem nearestQuotient_mono (den : Nat) {num more : Nat} (h : num ≤ more) :
    nearestQuotient num den ≤ nearestQuotient more den := by
  have quotients : num / den ≤ more / den := Nat.div_le_div_right h
  have first := Nat.div_add_mod num den
  have second := Nat.div_add_mod more den
  unfold nearestQuotient
  by_cases same : num / den = more / den
  · rw [same] at first ⊢
    have rests : num % den ≤ more % den := by omega
    dsimp only
    split_ifs <;> omega
  · dsimp only
    split_ifs <;> omega

theorem nearestQuotient_mul (den n : Nat) (positive : 0 < den) :
    nearestQuotient (den * n) den = n := by
  unfold nearestQuotient
  rw [Nat.mul_div_cancel_left n positive, Nat.mul_mod_right]
  simp [positive]

theorem leadingDigits_eq (num den : Nat) :
    leadingDigits num den =
      nearestQuotient num (den * 2 ^ excessDigits num den) * 2 ^ excessDigits num den := by
  unfold leadingDigits
  rw [Nat.shiftLeft_eq, Nat.shiftLeft_eq]

theorem leadingDigits_le (num den : Nat) (positive : 0 < den) :
    leadingDigits num den ≤ 2 ^ (53 + excessDigits num den) := by
  have digits : num / den < 2 ^ (53 + excessDigits num den) := by
    apply Nat.lt_of_lt_of_le Nat.lt_log2_self
    apply Nat.pow_le_pow_right (by decide)
    unfold excessDigits
    omega
  have bound : num ≤ den * 2 ^ excessDigits num den * 2 ^ 53 := by
    rw [Nat.mul_assoc, ← Nat.pow_add, Nat.add_comm, Nat.mul_comm]
    exact Nat.le_of_lt ((Nat.div_lt_iff_lt_mul positive).1 digits)
  have scaled : 0 < den * 2 ^ excessDigits num den := Nat.mul_pos positive (Nat.two_pow_pos _)
  have most := nearestQuotient_mono (den * 2 ^ excessDigits num den) bound
  rw [nearestQuotient_mul _ _ scaled] at most
  rw [leadingDigits_eq, Nat.pow_add]
  exact Nat.mul_le_mul_right _ most

theorem le_leadingDigits (num den : Nat) (positive : 0 < den) (excess : 0 < excessDigits num den) :
    2 ^ (52 + excessDigits num den) ≤ leadingDigits num den := by
  have exponent : (num / den).log2 = 52 + excessDigits num den := by
    unfold excessDigits at excess ⊢
    omega
  have nonzero : num / den ≠ 0 := by
    intro zero
    rw [zero, Nat.log2_zero] at exponent
    omega
  have digits : 2 ^ (52 + excessDigits num den) ≤ num / den := by
    rw [← exponent]
    exact Nat.log2_self_le nonzero
  have bound : den * 2 ^ excessDigits num den * 2 ^ 52 ≤ num := by
    rw [Nat.mul_assoc, ← Nat.pow_add, Nat.add_comm, Nat.mul_comm]
    exact (Nat.le_div_iff_mul_le positive).1 digits
  have scaled : 0 < den * 2 ^ excessDigits num den := Nat.mul_pos positive (Nat.two_pow_pos _)
  have least := nearestQuotient_mono (den * 2 ^ excessDigits num den) bound
  rw [nearestQuotient_mul _ _ scaled] at least
  rw [leadingDigits_eq, Nat.pow_add]
  exact Nat.mul_le_mul_right _ least

theorem leadingDigits_mono (den : Nat) (positive : 0 < den) {num more : Nat} (h : num ≤ more) :
    leadingDigits num den ≤ leadingDigits more den := by
  have excess : excessDigits num den ≤ excessDigits more den := by
    have quotients : num / den ≤ more / den := Nat.div_le_div_right h
    have logs : (num / den).log2 ≤ (more / den).log2 := by
      rw [Nat.log2_eq_log_two, Nat.log2_eq_log_two]
      exact Nat.log_mono_right quotients
    unfold excessDigits
    omega
  rcases Nat.lt_or_eq_of_le excess with fewer | same
  · calc leadingDigits num den
        ≤ 2 ^ (53 + excessDigits num den) := leadingDigits_le num den positive
      _ ≤ 2 ^ (52 + excessDigits more den) := Nat.pow_le_pow_right (by decide) (by omega)
      _ ≤ leadingDigits more den := le_leadingDigits more den positive (by omega)
  · rw [leadingDigits_eq, leadingDigits_eq, same]
    exact Nat.mul_le_mul_right _ (nearestQuotient_mono _ h)

theorem usOfTicks_mono (ticks seconds : Nat) (positive : 0 < ticks) {tick later : Nat}
    (h : tick ≤ later) : usOfTicks ticks seconds tick ≤ usOfTicks ticks seconds later := by
  have start := leadingDigits_mono 1 Nat.one_pos h
  have scaled := Nat.mul_le_mul_right (seconds <<< (ticks.log2 + 53)) start
  have elapsed := leadingDigits_mono ticks positive scaled
  have product := leadingDigits_mono 1 Nat.one_pos (Nat.mul_le_mul_right 1000000 elapsed)
  unfold usOfTicks
  apply min_le_min_right
  apply Nat.div_le_div_right
  omega

theorem File.tickToMs_mono (f : File) {tick later : Nat} (h : tick ≤ later) :
    f.timeBase.tickToMs tick ≤ f.timeBase.tickToMs later := by
  apply Nat.div_le_div_right
  unfold File.timeBase
  cases f.timing with
  | metrical ticksPerBeat =>
    exact usUntil_mono _ _ h (Nat.le_refl 0) (Nat.zero_le _)
  | timecode rate subframes =>
    apply usOfTicks_mono _ _ _ h
    cases rate <;> simp

end ScoreDesk.Smf
