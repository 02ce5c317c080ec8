import Mathlib
import ScoreDesk.Proofs.Text.Scan
import ScoreDesk.Transport.Basic

namespace ScoreDesk

namespace Text

theorem digit_lt_ten {c : Char} (digit : c.isDigit = true) : c.toNat - '0'.toNat < 10 := by
  have bounds := isDigit_iff.mp digit
  have zero : '0'.toNat = 48 := rfl
  omega

theorem digitChar_of_isDigit {c : Char} (digit : c.isDigit = true) :
    Nat.digitChar (c.toNat - '0'.toNat) = c := by
  apply Char.toNat_inj.mp
  rw [Nat.toNat_digitChar_of_lt_ten (digit_lt_ten digit)]
  have bounds := isDigit_iff.mp digit
  have zero : '0'.toNat = 48 := rfl
  omega

theorem toDigits_ofDigitChars {n : Nat} (positive : 0 < n) {digits : List Char}
    (all : ∀ c ∈ digits, c.isDigit = true) :
    Nat.toDigits 10 (Nat.ofDigitChars 10 digits n) = Nat.toDigits 10 n ++ digits := by
  induction digits generalizing n with
  | nil => rw [Nat.ofDigitChars_nil, List.append_nil]
  | cons c rest ih =>
    have digit := all c List.mem_cons_self
    have below := digit_lt_ten digit
    have last : Nat.toDigits 10 (10 * n + (c.toNat - '0'.toNat)) = Nat.toDigits 10 n ++ [c] := by
      rw [← Nat.toDigits_append_toDigits (by decide) positive below, Nat.toDigits_of_lt_base below,
        digitChar_of_isDigit digit]
    rw [Nat.ofDigitChars_cons, ih (by omega) fun d member => all d (List.mem_cons_of_mem c member),
      last, List.append_assoc, List.singleton_append]

theorem exists_zeros (s : List Char) :
    ∃ count rest, s = List.replicate count '0' ++ rest ∧ rest.head? ≠ some '0' := by
  induction s with
  | nil => exact ⟨0, [], rfl, by simp⟩
  | cons c s ih =>
    by_cases zero : c = '0'
    · obtain ⟨count, rest, rfl, other⟩ := ih
      exact ⟨count + 1, rest, by rw [zero, List.replicate_succ, List.cons_append], other⟩
    · exact ⟨0, c :: s, rfl, by simpa using zero⟩

end Text

namespace Transport

/-- A time as it is written: the minutes in digits, a colon, and the seconds below a minute in two
    digits. -/
structure Timestamp where
  minutes : List Char
  seconds : List Char
  minutes_nonempty : minutes ≠ []
  minutes_digits : ∀ c ∈ minutes, c.isDigit = true
  seconds_digits : ∀ c ∈ seconds, c.isDigit = true
  seconds_two : seconds.length = 2
  seconds_below : Nat.ofDigitChars 10 seconds 0 < 60

namespace Timestamp

def text (t : Timestamp) : List Char :=
  t.minutes ++ ':' :: t.seconds

def minuteCount (t : Timestamp) : Nat :=
  Nat.ofDigitChars 10 t.minutes 0

def secondCount (t : Timestamp) : Nat :=
  Nat.ofDigitChars 10 t.seconds 0

def ms (t : Timestamp) : Nat :=
  (60 * t.minuteCount + t.secondCount) * 1000

end Timestamp

def withoutZeros (text : List Char) : List Char :=
  match text.dropWhile (· == '0') with
  | ':' :: seconds => '0' :: ':' :: seconds
  | rest => rest

section Steps

def fit? (limit n : Nat) : Option Nat :=
  if n < limit then some n else none

/-- The seconds of a time, rounded by steps that may not leave 63 bits. -/
def checkedSeconds? (ms : Nat) : Option Nat := do
  let whole ← fit? (2 ^ 63) (ms / 1000)
  fit? (2 ^ 63) (whole + if 500 ≤ ms % 1000 then 1 else 0)

def checkedMs? (minutes seconds : Nat) : Option Nat := do
  let whole ← fit? msLimit (minutes * 60)
  let sum ← fit? msLimit (whole + seconds)
  fit? msLimit (sum * 1000)

theorem fit?_eq_some_iff {limit n m : Nat} : fit? limit n = some m ↔ n < limit ∧ n = m := by
  unfold fit?
  split <;> simp_all

theorem checkedMs?_eq_some_iff {minutes seconds ms : Nat} :
    checkedMs? minutes seconds = some ms ↔
      (60 * minutes + seconds) * 1000 = ms ∧ ms < msLimit := by
  simp only [checkedMs?, Option.bind_eq_bind, Option.bind_eq_some_iff, fit?_eq_some_iff]
  constructor
  · rintro ⟨_, ⟨_, rfl⟩, _, ⟨_, rfl⟩, fits, rfl⟩
    exact ⟨by omega, by omega⟩
  · rintro ⟨rfl, fits⟩
    have sum : minutes * 60 + seconds < msLimit := by omega
    have whole : minutes * 60 < msLimit := by omega
    have order : (minutes * 60 + seconds) * 1000 = (60 * minutes + seconds) * 1000 := by omega
    exact ⟨_, ⟨whole, rfl⟩, _, ⟨sum, rfl⟩, by rwa [order], order⟩

end Steps

theorem ofDigitChars_pair (tens ones : Char) :
    Nat.ofDigitChars 10 [tens, ones] 0 =
      (tens.toNat - '0'.toNat) * 10 + (ones.toNat - '0'.toNat) := by
  simp only [Nat.ofDigitChars_cons, Nat.ofDigitChars_nil]
  omega

theorem pair_below_iff {tens ones : Char} (first : tens.isDigit = true)
    (second : ones.isDigit = true) :
    Nat.ofDigitChars 10 [tens, ones] 0 < 60 ↔ tens < '6' := by
  have left := Text.isDigit_iff.mp first
  have right := Text.isDigit_iff.mp second
  have order : tens < '6' ↔ tens.toNat < 54 := by
    rw [Char.lt_def, UInt32.lt_iff_toNat_lt]
    rfl
  have zero : '0'.toNat = 48 := rfl
  rw [ofDigitChars_pair, order]
  omega

theorem Timestamp.exists_seconds (t : Timestamp) :
    ∃ tens ones, t.seconds = [tens, ones] ∧ tens.isDigit = true ∧ ones.isDigit = true ∧
      tens < '6' := by
  obtain ⟨tens, ones, pair⟩ := List.length_eq_two.mp t.seconds_two
  have digits := t.seconds_digits
  have below := t.seconds_below
  rw [pair] at digits below
  have first := digits tens (by simp)
  have second := digits ones (by simp)
  exact ⟨tens, ones, pair, first, second, (pair_below_iff first second).mp below⟩

theorem minutesSeconds?_text (t : Timestamp) (fits : t.minuteCount < msLimit) :
    minutesSeconds? t.text = some (t.minuteCount, t.secondCount) := by
  obtain ⟨tens, ones, pair, first, second, below⟩ := t.exists_seconds
  have colon : ':'.isDigit = false := rfl
  have minutes : Text.natBelow? msLimit t.minutes = some t.minuteCount :=
    (Text.natBelow?_eq_some_iff (by decide) t.minutes_nonempty).mpr ⟨t.minutes_digits, rfl, fits⟩
  unfold minutesSeconds? Timestamp.text
  rw [Text.takeWhile_until t.minutes_digits colon, Text.dropWhile_until t.minutes_digits colon,
    minutes, pair]
  simp only [first, second, below, Timestamp.secondCount, pair, ofDigitChars_pair]
  rfl

theorem exists_of_minutesSeconds? {text : List Char} {m s : Nat}
    (read : minutesSeconds? text = some (m, s)) :
    ∃ t : Timestamp, text = t.text ∧ t.minuteCount = m ∧ t.secondCount = s := by
  simp only [minutesSeconds?, Option.bind_eq_bind, Option.bind_eq_some_iff] at read
  obtain ⟨minutes, count, rest⟩ := read
  have nonempty : text.takeWhile Char.isDigit ≠ [] := by
    intro empty
    rw [empty] at count
    cases count
  obtain ⟨digits, value, -⟩ := (Text.natBelow?_eq_some_iff (by decide) nonempty).mp count
  split at rest
  · rename_i tens ones behind
    split at rest
    · rename_i pair
      obtain ⟨rfl, rfl⟩ := Prod.mk.inj (Option.some.inj rest)
      simp only [Bool.and_eq_true, decide_eq_true_eq] at pair
      obtain ⟨⟨first, second⟩, below⟩ := pair
      refine ⟨⟨text.takeWhile Char.isDigit, [tens, ones], nonempty, digits, ?_, rfl,
        (pair_below_iff first second).mpr below⟩, ?_, value, ofDigitChars_pair tens ones⟩
      · simp [first, second]
      · rw [Timestamp.text, ← behind, List.takeWhile_append_dropWhile]
    · cases rest
  · cases rest

/-- A text is read as a time exactly when it is written as one that fits. -/
theorem parseDisplay_eq_ok_iff {text : String} {ms : Nat} :
    parseDisplay text = .ok ms ↔
      ∃ t : Timestamp, text.toList = t.text ∧ t.ms = ms ∧ ms < msLimit := by
  unfold parseDisplay
  constructor
  · intro read
    split at read
    · rename_i m s found
      dsimp only at read
      split at read
      · rename_i fits
        obtain ⟨t, same, rfl, rfl⟩ := exists_of_minutesSeconds? found
        obtain rfl := Except.ok.inj read
        have order : t.ms = (t.minuteCount * 60 + t.secondCount) * 1000 := by
          unfold Timestamp.ms
          omega
        exact ⟨t, same, order, fits⟩
      · cases read
    · cases read
  · rintro ⟨t, same, rfl, fits⟩
    have order : (t.minuteCount * 60 + t.secondCount) * 1000 = t.ms := by
      unfold Timestamp.ms
      omega
    have minutes : t.minuteCount < msLimit := by
      unfold Timestamp.ms at fits
      omega
    rw [same, minutesSeconds?_text t minutes]
    simp only [order, fits, ↓reduceIte]

theorem parseDisplay_cases (text : String) :
    (∃ ms, parseDisplay text = .ok ms) ∨ parseDisplay text = .error (.invalidTimestamp text) := by
  unfold parseDisplay
  split
  · dsimp only
    split
    · exact .inl ⟨_, rfl⟩
    · exact .inr rfl
  · exact .inr rfl

namespace Timestamp

def ofSeconds (n : Nat) : Timestamp where
  minutes := Nat.toDigits 10 (n / 60)
  seconds := [Nat.digitChar (n % 60 / 10), Nat.digitChar (n % 60 % 10)]
  minutes_nonempty := Nat.toDigits_ne_nil
  minutes_digits := fun _ member => Nat.isDigit_of_mem_toDigits (by decide) (by decide) member
  seconds_digits := by
    simp [Nat.isDigit_digitChar]
    omega
  seconds_two := rfl
  seconds_below := by
    rw [Nat.ofDigitChars_cons_digitChar_of_lt_ten (by omega),
      Nat.ofDigitChars_cons_digitChar_of_lt_ten (by omega), Nat.ofDigitChars_nil]
    omega

theorem text_ofSeconds (n : Nat) : (ofSeconds n).text =
    Nat.toDigits 10 (n / 60) ++ [':', Nat.digitChar (n % 60 / 10), Nat.digitChar (n % 60 % 10)] :=
  rfl

@[simp] theorem minuteCount_ofSeconds (n : Nat) : (ofSeconds n).minuteCount = n / 60 :=
  Nat.ofDigitChars_ten_toDigits

@[simp] theorem secondCount_ofSeconds (n : Nat) : (ofSeconds n).secondCount = n % 60 := by
  unfold secondCount ofSeconds
  rw [Nat.ofDigitChars_cons_digitChar_of_lt_ten (by omega),
    Nat.ofDigitChars_cons_digitChar_of_lt_ten (by omega), Nat.ofDigitChars_nil]
  omega

@[simp] theorem ms_ofSeconds (n : Nat) : (ofSeconds n).ms = n * 1000 := by
  rw [ms, minuteCount_ofSeconds, secondCount_ofSeconds]
  omega

end Timestamp

theorem toList_twoDigits {n : Nat} (small : n < 100) :
    (twoDigits n).toList = [Nat.digitChar (n / 10), Nat.digitChar (n % 10)] := by
  unfold twoDigits
  split
  · rename_i one
    have tens : n / 10 = 0 := by omega
    have ones : n % 10 = n := by omega
    rw [tens, ones]
    simp [Nat.toDigits_of_lt_base one]
    rfl
  · rw [Nat.toString_eq_ofList_toDigits, String.toList_ofList,
      Nat.toDigits_of_base_le (by decide) (by omega), Nat.toDigits_of_lt_base (by omega)]
    rfl

theorem toList_display (ms : Nat) :
    (display ms).toList = (Timestamp.ofSeconds (roundedSeconds ms)).text := by
  have below : roundedSeconds ms % 60 < 100 := by omega
  simp [display, toList_twoDigits below, Timestamp.text_ofSeconds]
  rfl

theorem roundedSeconds_eq (ms : Nat) : roundedSeconds ms = (ms + 500) / 1000 := by
  unfold roundedSeconds
  split <;> omega

namespace Timestamp

theorem roundedSeconds_ms (t : Timestamp) :
    roundedSeconds t.ms = 60 * t.minuteCount + t.secondCount := by
  rw [roundedSeconds_eq, ms]
  omega

theorem seconds_eq (t : Timestamp) :
    t.seconds = [Nat.digitChar (t.secondCount / 10), Nat.digitChar (t.secondCount % 10)] := by
  obtain ⟨tens, ones, pair, first, second, -⟩ := t.exists_seconds
  have small := Text.digit_lt_ten second
  have quotient : t.secondCount / 10 = tens.toNat - '0'.toNat := by
    rw [secondCount, pair, ofDigitChars_pair]
    omega
  have remainder : t.secondCount % 10 = ones.toNat - '0'.toNat := by
    rw [secondCount, pair, ofDigitChars_pair]
    omega
  rw [quotient, remainder, Text.digitChar_of_isDigit first, Text.digitChar_of_isDigit second, pair]

theorem withoutZeros_text (t : Timestamp) :
    withoutZeros t.text = Nat.toDigits 10 t.minuteCount ++ ':' :: t.seconds := by
  obtain ⟨count, rest, split, other⟩ := Text.exists_zeros t.minutes
  have digits := t.minutes_digits
  rw [split] at digits
  have zeros : ∀ c ∈ List.replicate count '0', (c == '0') = true := fun c member => by
    simpa using List.eq_of_mem_replicate member
  have value : t.minuteCount = Nat.ofDigitChars 10 rest 0 := by
    rw [minuteCount, split, Nat.ofDigitChars_append, Nat.ofDigitChars_replicate_zero, Nat.mul_zero]
  have whole : t.text = List.replicate count '0' ++ (rest ++ ':' :: t.seconds) := by
    rw [text, split, List.append_assoc]
  cases rest with
  | nil =>
    rw [withoutZeros, whole, List.nil_append, Text.dropWhile_until zeros rfl, value]
    rfl
  | cons c more =>
    have digit : c.isDigit = true := digits c (by simp)
    have stops : (c == '0') = false := by simpa using other
    have positive : 0 < c.toNat - '0'.toNat := by
      have bounds := Text.isDigit_iff.mp digit
      have apart : c.toNat ≠ '0'.toNat := fun same => by simp [Char.toNat_inj.mp same] at stops
      have zero : '0'.toNat = 48 := rfl
      omega
    have written : Nat.toDigits 10 t.minuteCount = c :: more := by
      rw [value, Nat.ofDigitChars_cons, Nat.mul_zero, Nat.zero_add,
        Text.toDigits_ofDigitChars positive fun d member => digits d (by simp [member]),
        Nat.toDigits_of_lt_base (Text.digit_lt_ten digit), Text.digitChar_of_isDigit digit,
        List.singleton_append]
    rw [withoutZeros, whole, List.cons_append, Text.dropWhile_until zeros stops, written]
    split
    · rename_i seconds same
      rw [(List.cons.inj same).1] at digit
      cases digit
    · rfl

theorem toList_display_ms (t : Timestamp) : (display t.ms).toList = withoutZeros t.text := by
  have below := t.seconds_below
  have minutes : (60 * t.minuteCount + t.secondCount) / 60 = t.minuteCount := by
    unfold secondCount
    omega
  have seconds : (60 * t.minuteCount + t.secondCount) % 60 = t.secondCount := by
    unfold secondCount
    omega
  rw [toList_display, roundedSeconds_ms, text_ofSeconds, minutes, seconds, withoutZeros_text,
    seconds_eq]

end Timestamp

theorem displaySigned_of_nonneg {ms : Int} (nonneg : 0 ≤ ms) :
    displaySigned ms = .ok (display ms.toNat) :=
  if_neg (Int.not_lt.mpr nonneg)

theorem Timestamp.ms_of_text_eq {t t' : Timestamp} (same : t.text = t'.text) : t.ms = t'.ms := by
  obtain ⟨minutes, seconds⟩ := Text.stop_inj t.minutes_digits t'.minutes_digits
    (rfl : ':'.isDigit = false) same
  rw [ms, ms, minuteCount, minuteCount, secondCount, secondCount, minutes, seconds]

theorem parseDisplay_display (ms : Nat) :
    parseDisplay (display ms) =
      if roundedSeconds ms * 1000 < msLimit then .ok (roundedSeconds ms * 1000)
      else .error (.invalidTimestamp (display ms)) := by
  have shown := toList_display ms
  split
  · rename_i fits
    exact parseDisplay_eq_ok_iff.mpr ⟨_, shown, Timestamp.ms_ofSeconds _, fits⟩
  · rename_i large
    rcases parseDisplay_cases (display ms) with ⟨read, accepted⟩ | refused
    · obtain ⟨t, same, rfl, fits⟩ := parseDisplay_eq_ok_iff.mp accepted
      rw [Timestamp.ms_of_text_eq (same.symm.trans shown), Timestamp.ms_ofSeconds] at fits
      exact absurd fits large
    · exact refused

/-- A text is read as a time exactly if it is minutes in ASCII digits, a colon and two digits of
    seconds, and the milliseconds fit 64 bits. What is shown for a time is read as the nearest whole
    second, a half being rounded up, and no step on the way overflows. What is shown for a time that
    was read is the text without zeros in front. -/
theorem shown_times_read_exactly :
    (∀ (text : String) (ms : Nat), parseDisplay text = .ok ms ↔ ∃ t : Timestamp,
      text.toList = t.text ∧ (60 * t.minuteCount + t.secondCount) * 1000 = ms ∧ ms < 2 ^ 64) ∧
    (∀ ms : Int, 0 ≤ ms → ms < 2 ^ 63 → ∃ (text : String) (seconds : Nat),
      displaySigned ms = .ok text ∧ checkedSeconds? ms.toNat = some seconds ∧
      text.toList = (Timestamp.ofSeconds seconds).text ∧
      checkedMs? (seconds / 60) (seconds % 60) = some ((ms.toNat + 500) / 1000 * 1000) ∧
      parseDisplay text = .ok ((ms.toNat + 500) / 1000 * 1000)) ∧
    ∀ (text : String) (ms : Nat), parseDisplay text = .ok ms → ms < 2 ^ 63 →
      displaySigned ms = .ok (.ofList (withoutZeros text.toList)) := by
  refine ⟨fun text ms => parseDisplay_eq_ok_iff, fun ms nonneg small => ?_,
    fun text ms read small => ?_⟩
  · have rounded := roundedSeconds_eq ms.toNat
    have fits : roundedSeconds ms.toNat * 1000 < msLimit := by
      unfold msLimit
      omega
    refine ⟨display ms.toNat, roundedSeconds ms.toNat, displaySigned_of_nonneg nonneg, ?_,
      toList_display ms.toNat, checkedMs?_eq_some_iff.mpr ⟨by omega, rounded ▸ fits⟩, ?_⟩
    · simp only [checkedSeconds?, Option.bind_eq_bind, Option.bind_eq_some_iff, fit?_eq_some_iff]
      have seconds : roundedSeconds ms.toNat < 2 ^ 63 := by omega
      exact ⟨_, ⟨by omega, rfl⟩, seconds, rfl⟩
    · rw [parseDisplay_display, if_pos fits, rounded]
  · obtain ⟨t, same, rfl, -⟩ := parseDisplay_eq_ok_iff.mp read
    rw [displaySigned_of_nonneg (Int.natCast_nonneg _), Int.toNat_natCast, same,
      ← t.toList_display_ms, String.ofList_toList]

theorem latest_time_read_back :
    (∃ text, displaySigned (2 ^ 63 - 1) = .ok text ∧
      parseDisplay text = .ok 9223372036854776000) ∧
    parseDisplay "007:05" = .ok 425000 ∧ displaySigned 425000 = .ok "7:05" := by
  have read : parseDisplay "007:05" = .ok 425000 := by decide +kernel
  obtain ⟨text, -, shown, -, -, -, back⟩ :=
    shown_times_read_exactly.2.1 (2 ^ 63 - 1) (by decide) (by decide)
  exact ⟨⟨text, shown, back⟩, read, shown_times_read_exactly.2.2 "007:05" 425000 read (by decide)⟩

example : parseDisplay "307445734561825:51" = .ok 18446744073709551000 ∧
    parseDisplay "307445734561825:52" = .error (.invalidTimestamp "307445734561825:52") := by
  decide +kernel

end Transport

end ScoreDesk
