import Mathlib
import ScoreDesk.Proofs.Text.Scan
import ScoreDesk.Text.Utf8

namespace ScoreDesk.Text

open String (utf8EncodeChar)

namespace Utf8

section Lead

variable {n m : Nat}

theorem lead?_one (ascii : n < 128) : lead? (UInt8.ofNat n) = some (1, 0x80, 0xbf) := by
  have all : ∀ n : Fin 128, lead? (UInt8.ofNat n) = some (1, 0x80, 0xbf) := by decide +kernel
  exact all ⟨n, ascii⟩

theorem lead?_two (least : 2 ≤ n) (most : n < 32) :
    lead? (UInt8.ofNat (n + 192)) = some (2, 0x80, 0xbf) := by
  have all : ∀ n : Fin 32, 2 ≤ n.val → lead? (UInt8.ofNat (n + 192)) = some (2, 0x80, 0xbf) := by
    decide +kernel
  exact all ⟨n, most⟩ least

theorem lead?_three (bound : n < 16) (tail : m < 64) (long : n = 0 → 32 ≤ m)
    (valid : n = 13 → m < 32) :
    ∃ low high, lead? (UInt8.ofNat (n + 224)) = some (3, low, high) ∧
      low.toNat ≤ m + 128 ∧ m + 128 ≤ high.toNat := by
  have others : ∀ n : Fin 16, n.val ≠ 0 → n.val ≠ 13 →
      lead? (UInt8.ofNat (n + 224)) = some (3, 0x80, 0xbf) := by
    decide +kernel
  by_cases lowest : n = 0
  · subst lowest
    refine ⟨0xa0, 0xbf, rfl, ?_, ?_⟩
    · show 160 ≤ m + 128
      exact Nat.add_le_add_right (long rfl) 128
    · show m + 128 ≤ 191
      omega
  by_cases surrogate : n = 13
  · subst surrogate
    refine ⟨0x80, 0x9f, rfl, Nat.le_add_left _ m, ?_⟩
    have below := valid rfl
    show m + 128 ≤ 159
    omega
  · refine ⟨0x80, 0xbf, others ⟨n, bound⟩ lowest surrogate, Nat.le_add_left _ m, ?_⟩
    show m + 128 ≤ 191
    omega

theorem lead?_four (bound : n < 5) (tail : m < 64) (long : n = 0 → 16 ≤ m)
    (valid : n = 4 → m < 16) :
    ∃ low high, lead? (UInt8.ofNat (n + 240)) = some (4, low, high) ∧
      low.toNat ≤ m + 128 ∧ m + 128 ≤ high.toNat := by
  have others : ∀ n : Fin 5, n.val ≠ 0 → n.val ≠ 4 →
      lead? (UInt8.ofNat (n + 240)) = some (4, 0x80, 0xbf) := by
    decide +kernel
  by_cases lowest : n = 0
  · subst lowest
    refine ⟨0x90, 0xbf, rfl, ?_, ?_⟩
    · show 144 ≤ m + 128
      exact Nat.add_le_add_right (long rfl) 128
    · show m + 128 ≤ 191
      omega
  by_cases highest : n = 4
  · subst highest
    refine ⟨0x80, 0x8f, rfl, Nat.le_add_left _ m, ?_⟩
    have below := valid rfl
    show m + 128 ≤ 143
    omega
  · refine ⟨0x80, 0xbf, others ⟨n, bound⟩ lowest highest, Nat.le_add_left _ m, ?_⟩
    show m + 128 ≤ 191
    omega

end Lead

theorem continue?_six {low high : UInt8} {m : Nat} (six : m < 64) (least : low.toNat ≤ m + 128)
    (most : m + 128 ≤ high.toNat) (owed value : Nat) (rest : Bytes) :
    continue? low high (owed + 1) value (UInt8.ofNat (m + 128) :: rest) =
      continue? 0x80 0xbf owed (value * 64 + m) rest := by
  have octet : (UInt8.ofNat (m + 128)).toNat = m + 128 :=
    UInt8.toNat_ofNat_of_lt (show m + 128 < 256 by omega)
  have within : (low ≤ UInt8.ofNat (m + 128) && UInt8.ofNat (m + 128) ≤ high) = true := by
    rw [Bool.and_eq_true, decide_eq_true_eq, decide_eq_true_eq, UInt8.le_iff_toNat_le,
      UInt8.le_iff_toNat_le, octet]
    exact ⟨least, most⟩
  have bits : (m + 128) % 64 = m := by omega
  rw [continue?, if_pos within, octet, bits]

theorem continue?_tail {m : Nat} (six : m < 64) (owed value : Nat) (rest : Bytes) :
    continue? 0x80 0xbf (owed + 1) value (UInt8.ofNat (m + 128) :: rest) =
      continue? 0x80 0xbf owed (value * 64 + m) rest := by
  have most : m + 128 ≤ (0xbf : UInt8).toNat := by
    show m + 128 ≤ 191
    omega
  exact continue?_six six (Nat.le_add_left _ m) most owed value rest

theorem first_of_lead {n base owed : Nat} {low high : UInt8}
    (lead : lead? (UInt8.ofNat (n + base)) = some (owed + 2, low, high)) (octet : n + base < 256)
    (bits : (n + base) % 2 ^ (5 - owed) = n) (rest : Bytes) :
    first (UInt8.ofNat (n + base)) rest =
      ((continue? low high (owed + 1) n rest).1.map Char.ofNat,
        (continue? low high (owed + 1) n rest).2) := by
  have whole : (UInt8.ofNat (n + base)).toNat = n + base := UInt8.toNat_ofNat_of_lt octet
  have several : (owed + 2 == 1) = false := rfl
  have low_bits : (n + base) % Nat.pow 2 (7 - (owed + 2)) = n := by
    rw [show 7 - (owed + 2) = 5 - owed by omega]
    exact bits
  rw [first, lead]
  simp only [several, Bool.false_eq_true, if_false, whole, low_bits,
    show owed + 2 - 1 = owed + 1 from rfl]

theorem first_utf8EncodeChar (c : Char) (rest : Bytes) :
    ∃ b tail, utf8EncodeChar c ++ rest = b :: tail ∧ first b tail = (some c, rest) := by
  obtain ⟨v, code⟩ : ∃ v, v = c.val.toNat := ⟨_, rfl⟩
  have back : Char.ofNat v = c := by
    rw [code]
    exact Char.ofNat_toNat c
  have valid : v < 55296 ∨ 57343 < v ∧ v < 1114112 := by
    rw [code]
    exact c.valid
  rw [utf8EncodeChar, ← code]
  by_cases one : v ≤ 127
  · refine ⟨UInt8.ofNat v, rest, by simp [one], ?_⟩
    have octet : (UInt8.ofNat v).toNat = v := UInt8.toNat_ofNat_of_lt (show v < 256 by omega)
    rw [first, lead?_one (by omega)]
    simp [continue?, octet, back]
  by_cases two : v ≤ 2047
  · refine ⟨UInt8.ofNat (v / 64 % 32 + 192), UInt8.ofNat (v % 64 + 128) :: rest,
      by simp [one, two], ?_⟩
    have whole : v / 64 % 32 * 64 + v % 64 = v := by omega
    rw [first_of_lead (lead?_two (by omega) (by omega)) (by omega) (by omega),
      continue?_tail (by omega), continue?, whole, Option.map_some, back]
  by_cases three : v ≤ 65535
  · refine ⟨UInt8.ofNat (v / 4096 % 16 + 224),
      UInt8.ofNat (v / 64 % 64 + 128) :: UInt8.ofNat (v % 64 + 128) :: rest,
      by simp [one, two, three], ?_⟩
    obtain ⟨low, high, lead, least, most⟩ := lead?_three (n := v / 4096 % 16) (m := v / 64 % 64)
      (by omega) (by omega) (by omega) (by omega)
    have whole : (v / 4096 % 16 * 64 + v / 64 % 64) * 64 + v % 64 = v := by omega
    rw [first_of_lead lead (by omega) (by omega), continue?_six (by omega) least most,
      continue?_tail (by omega), continue?, whole, Option.map_some, back]
  · refine ⟨UInt8.ofNat (v / 262144 % 8 + 240),
      UInt8.ofNat (v / 4096 % 64 + 128) :: UInt8.ofNat (v / 64 % 64 + 128) ::
        UInt8.ofNat (v % 64 + 128) :: rest,
      by simp [one, two, three], ?_⟩
    obtain ⟨low, high, lead, least, most⟩ := lead?_four (n := v / 262144 % 8) (m := v / 4096 % 64)
      (by omega) (by omega) (by omega) (by omega)
    have whole : ((v / 262144 % 8 * 64 + v / 4096 % 64) * 64 + v / 64 % 64) * 64 + v % 64 = v := by
      omega
    rw [first_of_lead lead (by omega) (by omega), continue?_six (by omega) least most,
      continue?_tail (by omega), continue?_tail (by omega), continue?, whole, Option.map_some, back]

theorem chars_flatMap (s : List Char) : chars (s.flatMap utf8EncodeChar) = s.map some := by
  induction s with
  | nil => rw [List.flatMap_nil, chars, List.map_nil]
  | cons c rest ih =>
    obtain ⟨b, tail, written, read⟩ := first_utf8EncodeChar c (rest.flatMap utf8EncodeChar)
    rw [List.flatMap_cons, written, chars, read, ih, List.map_cons]

theorem decode?_flatMap (s : List Char) :
    decode? (s.flatMap utf8EncodeChar) = some (.ofList s) := by
  have all : (s.map some).mapM id = some s := by
    induction s with
    | nil => rfl
    | cons c rest ih => simp [ih]
  rw [decode?, chars_flatMap, all, Option.map_some]

theorem decode_encode (s : String) : decode (encode s) = s := by
  have kept : (s.toList.map some).map (fun c => c.getD '\ufffd') = s.toList := by
    simp
  rw [decode, encode, chars_flatMap, kept, String.ofList_toList]

theorem not_ascii {n base : Nat} (high : 128 ≤ base) (octet : n + base < 256) :
    ¬ UInt8.ofNat (n + base) < 128 := by
  have whole : (UInt8.ofNat (n + base)).toNat = n + base := UInt8.toNat_ofNat_of_lt octet
  rw [UInt8.lt_iff_toNat_lt, whole]
  show ¬ n + base < 128
  omega

theorem utf8EncodeChar_of_mem {c : Char} {b : UInt8} (member : b ∈ utf8EncodeChar c)
    (ascii : b < 128) : utf8EncodeChar c = [b] ∧ c = Char.ofNat b.toNat := by
  rw [utf8EncodeChar] at member ⊢
  by_cases one : c.val.toNat ≤ 127
  · simp only [one, if_true, List.mem_singleton] at member ⊢
    have octet : b.toNat = c.toNat := by
      rw [member]
      exact UInt8.toNat_ofNat_of_lt (show c.val.toNat < 256 by omega)
    exact ⟨by rw [member], by rw [octet, Char.ofNat_toNat]⟩
  · exfalso
    revert ascii
    by_cases two : c.val.toNat ≤ 2047
    · simp only [one, two, if_true, if_false, List.mem_cons, List.not_mem_nil, or_false] at member
      rcases member with rfl | rfl
      all_goals exact not_ascii (by omega) (by omega)
    by_cases three : c.val.toNat ≤ 65535
    · simp only [one, two, three, if_true, if_false, List.mem_cons, List.not_mem_nil,
        or_false] at member
      rcases member with rfl | rfl | rfl
      all_goals exact not_ascii (by omega) (by omega)
    · simp only [one, two, three, if_false, List.mem_cons, List.not_mem_nil, or_false] at member
      rcases member with rfl | rfl | rfl | rfl
      all_goals exact not_ascii (by omega) (by omega)

end Utf8

namespace Stream

open Utf8

theorem lineFeed_not_mem {c : Char} (other : c ≠ '\n') : lineFeed ∉ utf8EncodeChar c :=
  fun member => other (utf8EncodeChar_of_mem member (by decide)).2

theorem splitAt_lineFeed (s : List Char) :
    splitAt lineFeed (s.flatMap utf8EncodeChar) =
      (splitAt '\n' s).map (·.flatMap utf8EncodeChar) := by
  induction s with
  | nil => rfl
  | cons c rest ih =>
    by_cases here : c = '\n'
    · have ending : (c :: rest).flatMap utf8EncodeChar =
          lineFeed :: rest.flatMap utf8EncodeChar := by
        rw [here]
        rfl
      rw [ending, splitAt_sep, ih, here, splitAt_sep]
      rfl
    · obtain ⟨piece, pieces, split⟩ := List.exists_cons_of_ne_nil (splitAt_ne_nil '\n' rest)
      rw [split, List.map_cons] at ih
      have apart : '\n' ∉ [c] := by simpa using Ne.symm here
      have going := splitAt_append apart split
      rw [List.singleton_append, List.singleton_append] at going
      rw [List.flatMap_cons, splitAt_append (lineFeed_not_mem here) ih, going, List.map_cons,
        List.flatMap_cons]

theorem dropReturn_flatMap (s : List Char) :
    lines.dropReturn (s.flatMap utf8EncodeChar) = (dropReturn s).flatMap utf8EncodeChar := by
  rcases List.eq_nil_or_concat' s with rfl | ⟨before, c, rfl⟩
  · rfl
  by_cases returned : c = '\r'
  · have octets : (before ++ [c]).flatMap utf8EncodeChar =
        before.flatMap utf8EncodeChar ++ [0x0d] := by
      rw [returned, List.flatMap_append]
      rfl
    have dropped : dropReturn (before ++ [c]) = before := by
      simp [dropReturn, returned]
    rw [octets, dropped, lines.dropReturn, List.getLast?_concat, if_pos rfl, List.dropLast_concat]
  · have kept : dropReturn (before ++ [c]) = before ++ [c] := by
      simp [dropReturn, returned]
    have octets : (before ++ [c]).flatMap utf8EncodeChar =
        before.flatMap utf8EncodeChar ++ utf8EncodeChar c := by
      simp
    have other : (utf8EncodeChar c).getLast? ≠ some 0x0d := fun last =>
      returned (utf8EncodeChar_of_mem (List.mem_of_getLast? last) (by decide)).2
    rw [kept, octets, lines.dropReturn,
      List.getLast?_append_of_ne_nil _ String.utf8EncodeChar_ne_nil, if_neg other]

theorem lines_flatMap_utf8EncodeChar (s : List Char) :
    lines (s.flatMap utf8EncodeChar) = (Text.lines s).map (·.flatMap utf8EncodeChar) := by
  obtain ⟨before, last, pieces⟩ := exists_pieces '\n' s
  rw [lines_of_pieces pieces, lines, splitAt_lineFeed, pieces]
  have dropped : (before.map (·.flatMap utf8EncodeChar)).map lines.dropReturn =
      (before.map dropReturn).map (·.flatMap utf8EncodeChar) := by
    rw [List.map_map, List.map_map]
    exact List.map_congr_left fun line _ => dropReturn_flatMap line
  simp only [List.map_append, List.map_cons, List.map_nil, List.dropLast_concat,
    List.getLast?_concat, Option.toList_some, dropped]
  cases last with
  | nil => rfl
  | cons c rest => simp

theorem textLines_encode (text : String) :
    textLines (encode text) = (Text.lines text.toList).map .ofList := by
  have read : (lines (encode text)).map decode? =
      ((Text.lines text.toList).map String.ofList).map some := by
    rw [encode, lines_flatMap_utf8EncodeChar, List.map_map, List.map_map]
    exact List.map_congr_left fun line _ => decode?_flatMap line
  have all : ∀ line ∈ ((Text.lines text.toList).map String.ofList).map some,
      line.isSome = true := by
    simp
  rw [textLines, read, List.takeWhile_eq_self_iff.mpr all, List.filterMap_map]
  exact List.filterMap_some

end Stream

end ScoreDesk.Text
