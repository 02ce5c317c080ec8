import Mathlib
import ScoreDesk.Proofs.Smf.ReadTempos

namespace ScoreDesk.Smf

def tempoAt (tempos : List TempoChange) (tick : Nat) : Nat :=
  ((tempos.filter (·.tick ≤ tick)).getLast?.getD defaultTempo).usPerBeat

/-- The microseconds up to a tick, where each tick lasts exactly as long as the tempo at it says. -/
def exactUs (ticksPerBeat : Nat) (tempos : List TempoChange) (tick : Nat) : ℚ :=
  ∑ t ∈ Finset.range tick, (tempoAt tempos t : ℚ) / ticksPerBeat

/-- How many segments of one tempo begin before a tick: one with the file, and one wherever a tempo
    is set. All but the last of those at one tick are empty and do not count. -/
def segmentsBefore (tempos : List TempoChange) (tick : Nat) : Nat :=
  ((insert 0 (tempos.map (·.tick)).toFinset).filter (· < tick)).card

section Steps

def word? (n : Nat) : Option Nat :=
  if n ≤ timeLimit then some n else none

def difference? (a b : Nat) : Option Nat :=
  if b ≤ a then some (a - b) else none

def quotient? (a b : Nat) : Option Nat :=
  if b = 0 then none else some (a / b)

/-- The time of a tick by the steps of `usUntil`, where none of them may go below zero, beyond 64
    bits, or divide by zero. -/
def checkedUs? (ticksPerBeat tick : Nat) : Nat → List TempoChange → Option Nat
  | us, [] => some us
  | us, change :: rest =>
    if tick ≤ change.tick then some us
    else do
      let ticks ← difference? (segmentEnd tick rest) change.tick
      let product ← word? (ticks * change.usPerBeat)
      let elapsed ← quotient? product ticksPerBeat
      checkedUs? ticksPerBeat tick (← word? (us + elapsed)) rest

theorem word?_eq_some_iff {n m : Nat} : word? n = some m ↔ n ≤ timeLimit ∧ n = m := by
  unfold word?
  split <;> simp_all

theorem difference?_eq_some_iff {a b n : Nat} : difference? a b = some n ↔ b ≤ a ∧ a - b = n := by
  unfold difference?
  split <;> simp_all

theorem quotient?_eq_some_iff {a b n : Nat} : quotient? a b = some n ↔ b ≠ 0 ∧ a / b = n := by
  unfold quotient?
  split <;> simp_all

end Steps

def Ascending (changes : List TempoChange) : Prop :=
  changes.Pairwise fun a b => a.tick ≤ b.tick

section Segments

variable {ticksPerBeat tick : Nat} {change : TempoChange} {rest : List TempoChange}

theorem segmentEnd_le (tick : Nat) (rest : List TempoChange) : segmentEnd tick rest ≤ tick := by
  cases rest with
  | nil => exact Nat.le_refl tick
  | cons next more => exact Nat.min_le_right _ _

theorem Ascending.head_le (ascending : Ascending (change :: rest)) {other : TempoChange}
    (member : other ∈ change :: rest) : change.tick ≤ other.tick := by
  rcases List.mem_cons.mp member with rfl | later
  · exact Nat.le_refl _
  · exact (List.pairwise_cons.mp ascending).1 other later

theorem Ascending.le_segmentEnd (ascending : Ascending (change :: rest))
    (begun : change.tick < tick) : change.tick ≤ segmentEnd tick rest := by
  cases rest with
  | nil => exact Nat.le_of_lt begun
  | cons next more =>
    exact Nat.le_min.mpr ⟨ascending.head_le (by simp), Nat.le_of_lt begun⟩

theorem checkedUs?_cons_eq_some_iff (begun : change.tick < tick) {us time : Nat} :
    let product := (segmentEnd tick rest - change.tick) * change.usPerBeat
    checkedUs? ticksPerBeat tick us (change :: rest) = some time ↔
      change.tick ≤ segmentEnd tick rest ∧ product ≤ timeLimit ∧ ticksPerBeat ≠ 0 ∧
        us + product / ticksPerBeat ≤ timeLimit ∧
        checkedUs? ticksPerBeat tick (us + product / ticksPerBeat) rest = some time := by
  simp only [checkedUs?, Nat.not_le.mpr begun, ↓reduceIte, Option.bind_eq_bind,
    Option.bind_eq_some_iff, word?_eq_some_iff, difference?_eq_some_iff, quotient?_eq_some_iff]
  constructor
  · rintro ⟨_, ⟨ordered, rfl⟩, _, ⟨small, rfl⟩, _, ⟨positive, rfl⟩, _, ⟨fits, rfl⟩, same⟩
    exact ⟨ordered, small, positive, fits, same⟩
  · rintro ⟨ordered, small, positive, fits, same⟩
    exact ⟨_, ⟨ordered, rfl⟩, _, ⟨small, rfl⟩, _, ⟨positive, rfl⟩, _, ⟨fits, rfl⟩, same⟩

/-- No step of a walk goes wrong while the ticks still to come have room at the slowest tempo. -/
theorem checkedUs?_eq_usUntil (positive : ticksPerBeat ≠ 0) {changes : List TempoChange}
    (ascending : Ascending changes) (fits : ∀ change ∈ changes, change.usPerBeat < tempoLimit)
    (us : Nat) (room : ∀ first ∈ changes.head?,
      us + (tick - first.tick) * (tempoLimit - 1) ≤ timeLimit) :
    checkedUs? ticksPerBeat tick us changes = some (usUntil ticksPerBeat tick us changes) := by
  induction changes generalizing us with
  | nil => rfl
  | cons change rest ih =>
    by_cases begun : change.tick < tick
    · have room := room change rfl
      have stop := segmentEnd_le tick rest
      have start := ascending.le_segmentEnd begun
      have slowest : (segmentEnd tick rest - change.tick) * change.usPerBeat ≤
          (segmentEnd tick rest - change.tick) * (tempoLimit - 1) :=
        Nat.mul_le_mul_left _ (Nat.le_sub_one_of_lt (fits change (by simp)))
      have rounded := Nat.div_le_self
        ((segmentEnd tick rest - change.tick) * change.usPerBeat) ticksPerBeat
      unfold tempoLimit at room slowest
      have product : (segmentEnd tick rest - change.tick) * change.usPerBeat ≤ timeLimit := by
        omega
      have sum : us + (segmentEnd tick rest - change.tick) * change.usPerBeat / ticksPerBeat ≤
          timeLimit := by
        omega
      have walked : usUntil ticksPerBeat tick us (change :: rest) = usUntil ticksPerBeat tick
          (us + (segmentEnd tick rest - change.tick) * change.usPerBeat / ticksPerBeat) rest := by
        simp only [usUntil, Nat.not_le.mpr begun, ↓reduceIte, mulTime, addTime,
          Nat.min_eq_left product, Nat.min_eq_left sum]
      rw [walked]
      refine (checkedUs?_cons_eq_some_iff begun).mpr ⟨start, product, positive, sum, ?_⟩
      apply ih (List.pairwise_cons.mp ascending).2 fun other member => fits other (by simp [member])
      intro next first
      cases rest with
      | nil => cases first
      | cons other more =>
        cases first
        simp only [segmentEnd] at start stop slowest rounded sum ⊢
        unfold tempoLimit
        omega
    · have past : tick ≤ change.tick := Nat.le_of_not_lt begun
      simp [checkedUs?, usUntil, past]

theorem tempoAt_of_last (begun : change.tick ≤ tick) (later : ∀ next ∈ rest, tick < next.tick) :
    tempoAt (change :: rest) tick = change.usPerBeat := by
  have none : rest.filter (·.tick ≤ tick) = [] := by
    simpa [List.filter_eq_nil_iff] using later
  simp [tempoAt, begun, none]

theorem tempoAt_tail {next : TempoChange} {more : List TempoChange}
    (ascending : Ascending (change :: next :: more)) (begun : next.tick ≤ tick) :
    tempoAt (change :: next :: more) tick = tempoAt (next :: more) tick := by
  have before := ascending.head_le (List.mem_cons_of_mem _ List.mem_cons_self)
  have earlier : change.tick ≤ tick := Nat.le_trans before begun
  simp [tempoAt, earlier, begun, List.getLast?_cons_cons]

def exactFrom (ticksPerBeat tick : Nat) : List TempoChange → ℚ
  | [] => 0
  | change :: rest =>
    ∑ t ∈ Finset.Ico change.tick tick, (tempoAt (change :: rest) t : ℚ) / ticksPerBeat

theorem exactFrom_of_le (past : tick ≤ change.tick) :
    exactFrom ticksPerBeat tick (change :: rest) = 0 := by
  simp [exactFrom, past]

theorem tempoAt_of_lt_segmentEnd (ascending : Ascending (change :: rest)) {t : Nat}
    (here : change.tick ≤ t) (before : t < segmentEnd tick rest) :
    tempoAt (change :: rest) t = change.usPerBeat := by
  apply tempoAt_of_last here
  intro next member
  cases rest with
  | nil => cases member
  | cons other more =>
    have least := Ascending.head_le (List.pairwise_cons.mp ascending).2 member
    simp only [segmentEnd] at before
    omega

theorem sum_segment (ascending : Ascending (change :: rest)) :
    ∑ t ∈ Finset.Ico change.tick (segmentEnd tick rest),
      (tempoAt (change :: rest) t : ℚ) / ticksPerBeat =
        (((segmentEnd tick rest - change.tick) * change.usPerBeat : Nat) : ℚ) / ticksPerBeat := by
  have steady : ∀ t ∈ Finset.Ico change.tick (segmentEnd tick rest),
      (tempoAt (change :: rest) t : ℚ) / ticksPerBeat =
        (change.usPerBeat : ℚ) / ticksPerBeat := by
    intro t inside
    obtain ⟨here, before⟩ := Finset.mem_Ico.mp inside
    rw [tempoAt_of_lt_segmentEnd ascending here before]
  rw [Finset.sum_congr rfl steady, Finset.sum_const, Nat.card_Ico, nsmul_eq_mul, Nat.cast_mul,
    mul_div_assoc]

theorem sum_behind_segment (ascending : Ascending (change :: rest)) :
    ∑ t ∈ Finset.Ico (segmentEnd tick rest) tick,
      (tempoAt (change :: rest) t : ℚ) / ticksPerBeat = exactFrom ticksPerBeat tick rest := by
  cases rest with
  | nil => simp [segmentEnd, exactFrom]
  | cons next more =>
    by_cases reached : next.tick ≤ tick
    · simp only [segmentEnd, Nat.min_eq_left reached, exactFrom]
      refine Finset.sum_congr rfl fun t inside => ?_
      rw [tempoAt_tail ascending (Finset.mem_Ico.mp inside).1]
    · have past : tick ≤ next.tick := by omega
      simp [segmentEnd, Nat.min_eq_right past, exactFrom_of_le past]

theorem exactFrom_cons (ascending : Ascending (change :: rest)) (begun : change.tick < tick) :
    exactFrom ticksPerBeat tick (change :: rest) =
      (((segmentEnd tick rest - change.tick) * change.usPerBeat : Nat) : ℚ) / ticksPerBeat +
        exactFrom ticksPerBeat tick rest := by
  have start := ascending.le_segmentEnd begun
  have stop := segmentEnd_le tick rest
  rw [exactFrom, ← Finset.sum_Ico_consecutive _ start stop, sum_segment ascending,
    sum_behind_segment ascending]

def startsBefore (tick : Nat) (changes : List TempoChange) : Nat :=
  ((changes.map (·.tick)).toFinset.filter (· < tick)).card

theorem startsBefore_cons (ascending : Ascending (change :: rest)) (begun : change.tick < tick) :
    segmentEnd tick rest = change.tick ∧
        startsBefore tick (change :: rest) = startsBefore tick rest ∨
      startsBefore tick (change :: rest) = startsBefore tick rest + 1 := by
  unfold startsBefore
  rw [List.map_cons, List.toFinset_cons]
  by_cases again : change.tick ∈ rest.map (·.tick)
  · left
    rw [Finset.insert_eq_of_mem (List.mem_toFinset.mpr again)]
    refine ⟨?_, rfl⟩
    obtain ⟨other, member, same⟩ := List.mem_map.mp again
    cases rest with
    | nil => cases member
    | cons next more =>
      have before := ascending.head_le (List.mem_cons_of_mem _ List.mem_cons_self)
      have least := Ascending.head_le (List.pairwise_cons.mp ascending).2 member
      simp only [segmentEnd]
      omega
  · right
    have new : change.tick ∉ (rest.map (·.tick)).toFinset.filter (· < tick) := by
      intro member
      exact again (List.mem_toFinset.mp (Finset.mem_filter.mp member).1)
    rw [Finset.filter_insert, if_pos begun, Finset.card_insert_of_notMem new]

end Segments

/-- What is left of a quantity that was rounded down so many times on the way. -/
def RoundedDown (exact : ℚ) (times us : Nat) : Prop :=
  (us : ℚ) ≤ exact ∧ (exact - times < us ∨ exact = us)

namespace RoundedDown

theorem zero (times : Nat) : RoundedDown 0 times 0 :=
  ⟨by simp, .inr (by simp)⟩

theorem quotient (n m : Nat) : RoundedDown ((n : ℚ) / m) 1 (n / m) := by
  refine ⟨Nat.cast_div_le, .inl ?_⟩
  have below := Nat.lt_floor_add_one ((n : ℚ) / m)
  rw [Nat.floor_div_eq_div] at below
  rw [Nat.cast_one]
  linarith

theorem add {first second : ℚ} {m n a b : Nat} (left : RoundedDown first m a)
    (right : RoundedDown second n b) : RoundedDown (first + second) (m + n) (a + b) := by
  obtain ⟨leftAbove, leftNear⟩ := left
  obtain ⟨rightAbove, rightNear⟩ := right
  unfold RoundedDown
  push_cast
  refine ⟨add_le_add leftAbove rightAbove, ?_⟩
  have some : (0 : ℚ) ≤ m := Nat.cast_nonneg m
  have more : (0 : ℚ) ≤ n := Nat.cast_nonneg n
  rcases leftNear with near | same
  · left
    rcases rightNear with other | other
    · linarith
    · linarith
  · rcases rightNear with near | other
    · left
      linarith
    · right
      rw [same, other]

end RoundedDown

theorem checkedUs?_roundedDown {ticksPerBeat tick us time : Nat} {changes : List TempoChange}
    (ascending : Ascending changes) (h : checkedUs? ticksPerBeat tick us changes = some time) :
    ∃ passed, time = us + passed ∧
      RoundedDown (exactFrom ticksPerBeat tick changes) (startsBefore tick changes) passed := by
  induction changes generalizing us with
  | nil =>
    cases h
    exact ⟨0, rfl, .zero _⟩
  | cons change rest ih =>
    by_cases begun : change.tick < tick
    · obtain ⟨-, -, -, -, walked⟩ := (checkedUs?_cons_eq_some_iff begun).mp h
      obtain ⟨passed, total, rounded⟩ := ih (List.pairwise_cons.mp ascending).2 walked
      have segment := RoundedDown.quotient
        ((segmentEnd tick rest - change.tick) * change.usPerBeat) ticksPerBeat
      refine ⟨(segmentEnd tick rest - change.tick) * change.usPerBeat / ticksPerBeat + passed,
        by omega, ?_⟩
      rw [exactFrom_cons ascending begun]
      rcases startsBefore_cons ascending begun with ⟨empty, same⟩ | one
      · rw [same, empty]
        simpa using rounded
      · rw [one, Nat.add_comm]
        exact segment.add rounded
    · have past : tick ≤ change.tick := Nat.le_of_not_lt begun
      rw [checkedUs?, if_pos past] at h
      cases h
      rw [exactFrom_of_le past]
      exact ⟨0, rfl, .zero _⟩

section Default

variable (tempos : List TempoChange) (tick : Nat)

theorem tempoAt_withDefault : tempoAt (withDefault tempos) tick = tempoAt tempos tick := by
  rcases withDefault_cases tempos with ⟨-, -, -, -, same⟩ | added
  · rw [same]
  · have begun : defaultTempo.tick ≤ tick := Nat.zero_le tick
    rw [added]
    simp only [tempoAt, List.filter_cons, begun, decide_true, ↓reduceIte]
    cases tempos.filter (·.tick ≤ tick) with
    | nil => rfl
    | cons first rest => simp [List.getLast?_cons]

theorem exactFrom_withDefault (ticksPerBeat : Nat) :
    exactFrom ticksPerBeat tick (withDefault tempos) = exactUs ticksPerBeat tempos tick := by
  have start : ∃ first rest, withDefault tempos = first :: rest ∧ first.tick = 0 := by
    rcases withDefault_cases tempos with ⟨first, rest, split, once, same⟩ | added
    · exact ⟨first, rest, same.trans split, once⟩
    · exact ⟨_, _, added, rfl⟩
  obtain ⟨first, rest, split, once⟩ := start
  rw [split, exactFrom, ← split, once, ← Finset.range_eq_Ico]
  exact Finset.sum_congr rfl fun t _ => by rw [tempoAt_withDefault]

theorem startsBefore_withDefault :
    startsBefore tick (withDefault tempos) = segmentsBefore tempos tick := by
  unfold startsBefore segmentsBefore
  rcases withDefault_cases tempos with ⟨first, rest, split, once, same⟩ | added
  · rw [same, split]
    simp [once]
  · rw [added]
    simp [defaultTempo]

end Default

theorem RoundedDown.bounds {exact : ℚ} {times us : Nat} (rounded : RoundedDown exact times us) :
    (us : ℚ) ≤ exact ∧ (0 < times → exact - times < us) ∧ (times = 0 → (us : ℚ) = exact) := by
  obtain ⟨above, near⟩ := rounded
  refine ⟨above, fun some => ?_, fun none => ?_⟩
  · have positive : (0 : ℚ) < times := by exact_mod_cast some
    rcases near with near | same
    · exact near
    · linarith
  · subst none
    rcases near with near | same
    · push_cast at near
      linarith
    · exact same.symm

namespace File

theorem tempoChanges_ascending (f : File) : Ascending f.tempoChanges := by
  rw [tempoChanges_eq]
  have ascending : Ascending f.tempos := f.tempos_isStableSort.ascending
  rcases withDefault_cases f.tempos with ⟨-, -, -, -, same⟩ | added
  · rwa [same]
  · rw [added]
    exact List.pairwise_cons.mpr ⟨fun _ _ => Nat.zero_le _, ascending⟩

theorem TemposFit.tempoChanges {f : File} (fits : f.TemposFit) :
    ∀ change ∈ f.tempoChanges, change.usPerBeat < tempoLimit := by
  have sorted : ∀ change ∈ f.tempos, change.usPerBeat < tempoLimit := fun change member =>
    fits change ((f.tempos_isStableSort.mem_iff change).mp member)
  rw [tempoChanges_eq]
  rcases withDefault_cases f.tempos with ⟨-, -, -, -, same⟩ | added
  · rwa [same]
  · rw [added]
    intro change member
    rcases List.mem_cons.mp member with rfl | member
    · decide
    · exact sorted change member

/-- No step of the conversion of a tick to time goes wrong, and the time is what the tempos in order
    say, up to less than a microsecond for each segment that has begun. -/
structure RoundsDown (f : File) (ticksPerBeat tick : Nat) : Prop where
  checked : checkedUs? (max ticksPerBeat 1) tick 0 f.tempoChanges = some (f.timeBase.tickToUs tick)
  above : (f.timeBase.tickToUs tick : ℚ) ≤ exactUs (max ticksPerBeat 1) f.tempos tick
  near : 0 < segmentsBefore f.tempos tick →
    exactUs (max ticksPerBeat 1) f.tempos tick - segmentsBefore f.tempos tick <
      f.timeBase.tickToUs tick
  start : segmentsBefore f.tempos tick = 0 →
    (f.timeBase.tickToUs tick : ℚ) = exactUs (max ticksPerBeat 1) f.tempos tick

theorem TemposFit.roundsDown {f : File} {ticksPerBeat tick : Nat} (fits : f.TemposFit)
    (metrical : f.timing = .metrical ticksPerBeat) (early : tick < 2 ^ 40) :
    f.RoundsDown ticksPerBeat tick := by
  have ascending := f.tempoChanges_ascending
  have base : f.timeBase.tickToUs tick = usUntil (max ticksPerBeat 1) tick 0 f.tempoChanges := by
    simp only [timeBase, metrical, TimeBase.tickToUs]
  have positive : max ticksPerBeat 1 ≠ 0 := by omega
  have checked : checkedUs? (max ticksPerBeat 1) tick 0 f.tempoChanges =
      some (f.timeBase.tickToUs tick) := by
    rw [base]
    refine checkedUs?_eq_usUntil positive ascending fits.tempoChanges 0 fun first _ => ?_
    unfold tempoLimit timeLimit
    omega
  obtain ⟨passed, total, rounded⟩ := checkedUs?_roundedDown ascending checked
  rw [tempoChanges_eq, exactFrom_withDefault, startsBefore_withDefault] at rounded
  rw [Nat.zero_add] at total
  subst total
  obtain ⟨above, near, start⟩ := rounded.bounds
  exact ⟨checked, above, near, start⟩

/-- Up to 2^40 ticks times are exact but for the rounding, in every file whose tempos fit three
    octets, and so in every file that is read. -/
theorem tick_time_rounded_down {f : File} {ticksPerBeat tick : Nat}
    (metrical : f.timing = .metrical ticksPerBeat) (early : tick < 2 ^ 40) :
    (f.TemposFit → f.RoundsDown ticksPerBeat tick) ∧
      ∀ octets, File.read octets = .ok f → f.RoundsDown ticksPerBeat tick :=
  ⟨fun fits => fits.roundsDown metrical early,
    fun _ reads => (read_temposFit reads).roundsDown metrical early⟩

theorem extreme_tempos_rounded_down :
    let octets : Text.Bytes := [
      0x4d, 0x54, 0x68, 0x64, 0, 0, 0, 6, 0, 1, 0, 2, 0, 7,
      0x4d, 0x54, 0x72, 0x6b, 0, 0, 0, 14, 3, 0xff, 0x51, 3, 7, 0xa1, 0x21, 0, 0xff, 0x51, 3, 6,
        0x1a, 0x81,
      0x4d, 0x54, 0x72, 0x6b, 0, 0, 0, 14, 5, 0xff, 0x51, 3, 0, 0, 0, 2, 0xff, 0x51, 3, 0xff, 0xff,
        0xff]
    ∃ f, File.read octets = .ok f ∧ f.timing = .metrical 7 ∧ 16 < 2 ^ 40 ∧ f.RoundsDown 7 16 := by
  intro octets
  let f : File := ⟨.metrical 7, [[⟨3, .tempo 500001⟩, ⟨0, .tempo 400001⟩],
    [⟨5, .tempo 0⟩, ⟨2, .tempo 16777215⟩]]⟩
  have reads : File.read octets = .ok f := by decide +kernel
  exact ⟨f, reads, rfl, by decide, (tick_time_rounded_down rfl (by decide)).2 octets reads⟩

end File

end ScoreDesk.Smf
