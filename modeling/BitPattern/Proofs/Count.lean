import BitPattern.Pattern.Completion

set_option autoImplicit false

namespace BitPattern

theorem twoPow_le_pow {base m n : Nat} (hb : 2 ≤ base) (h : m ≤ n) :
    twoPow m ≤ Nat.pow base n :=
  Nat.le_trans (Nat.pow_le_pow_left hb m) (Nat.pow_le_pow_right (by omega) h)

theorem multiply?_eq {base count : Nat} (hc : count ≤ countLimit) (n : Nat) :
    multiply? base count n =
      if count * Nat.pow base n ≤ countLimit then some (count * Nat.pow base n) else none := by
  induction n generalizing count with
  | zero =>
    have hpow : count * Nat.pow base 0 = count := Nat.mul_one count
    rw [multiply?, hpow, if_pos hc]
  | succ n ih =>
    have hpow : count * Nat.pow base (n + 1) = count * base * Nat.pow base n := by
      rw [Nat.mul_assoc, Nat.mul_comm base]
      rfl
    rw [multiply?, hpow]
    by_cases hstep : count * base ≤ countLimit
    · rw [if_pos hstep, ih hstep]
    · have hbase : 0 < base := by
        rcases Nat.eq_zero_or_pos base with rfl | hbase
        · exact absurd (Nat.zero_le _) hstep
        · exact hbase
      have hgrow : count * base ≤ count * base * Nat.pow base n :=
        Nat.le_mul_of_pos_right _ (Nat.pow_pos hbase)
      have hpast : ¬count * base * Nat.pow base n ≤ countLimit := by omega
      rw [if_neg hstep, if_neg hpast]

theorem power?_eq {base : Nat} (hb : 2 ≤ base) (exponent : Nat) :
    power? base exponent =
      if Nat.pow base exponent ≤ countLimit then some (Nat.pow base exponent) else none := by
  have hone : 1 ≤ countLimit := by decide
  rw [power?]
  by_cases he : exponent ≤ exponentLimit
  · rw [if_pos he, multiply?_eq hone, Nat.one_mul]
  · have hlimit := countLimit_add_one
    have hexponent : 128 ≤ exponentLimit := by decide
    have hpow := twoPow_le_pow hb (show 128 ≤ exponent by omega)
    have hpast : ¬Nat.pow base exponent ≤ countLimit := by omega
    rw [if_neg he, if_neg hpast]

theorem arrangements_eq (base slots : Nat) :
    arrangements base slots =
      if Nat.pow base slots ≤ countLimit then ⟨Nat.pow base slots, []⟩
      else ⟨countLimit, [.countSaturated base slots]⟩ := by
  have hone : 1 ≤ countLimit := by decide
  match base, slots with
  | base, 0 => exact (if_pos hone).symm
  | 0, slots + 1 => exact (if_pos (Nat.zero_le _)).symm
  | 1, slots + 1 =>
    have hpow : Nat.pow 1 (slots + 1) = 1 := Nat.one_pow _
    rw [hpow, if_pos hone]
    rfl
  | base + 2, slots + 1 =>
    simp only [arrangements, power?_eq (Nat.le_add_left 2 base)]
    by_cases h : Nat.pow (base + 2) (slots + 1) ≤ countLimit
    · rw [if_pos h, if_pos h]
      rfl
    · rw [if_neg h, if_neg h]
      rfl

theorem value_arrangements (base slots : Nat) :
    (arrangements base slots).value = min (Nat.pow base slots) countLimit := by
  rw [arrangements_eq]
  by_cases h : Nat.pow base slots ≤ countLimit
  · rw [if_pos h, Nat.min_eq_left h]
  · rw [if_neg h, Nat.min_eq_right (Nat.le_of_not_le h)]

theorem Pattern.completionCount_of_lt {w : Nat} {p : Pattern w} (h : p.unknownCount < 128) :
    p.completionCount = ⟨twoPow p.unknownCount, []⟩ := by
  have hlimit := countLimit_add_one
  have hlt : twoPow p.unknownCount < twoPow 128 := Nat.pow_lt_pow_right Nat.one_lt_two h
  have hle : Nat.pow 2 p.unknownCount ≤ countLimit := show twoPow p.unknownCount ≤ _ by omega
  exact (arrangements_eq 2 p.unknownCount).trans (if_pos hle)

theorem Pattern.completionCount_of_ge {w : Nat} {p : Pattern w} (h : 128 ≤ p.unknownCount) :
    p.completionCount = ⟨countLimit, [.countSaturated 2 p.unknownCount]⟩ := by
  have hlimit := countLimit_add_one
  have hle : twoPow 128 ≤ twoPow p.unknownCount := Nat.pow_le_pow_right Nat.two_pos h
  have hpast : ¬Nat.pow 2 p.unknownCount ≤ countLimit :=
    show ¬twoPow p.unknownCount ≤ _ by omega
  exact (arrangements_eq 2 p.unknownCount).trans (if_neg hpast)

theorem Pattern.value_completionCount {w : Nat} (p : Pattern w) :
    p.completionCount.value = min (twoPow p.unknownCount) countLimit :=
  value_arrangements 2 p.unknownCount

/-- Counts are powers, cut off at the limit, and the cut is reported exactly when the power is past
it. So the completions of a pattern are counted exactly up to 127 unknown bits, and from 128 on the
cut is reported. -/
theorem arrangements_exact :
    (∀ base slots : Nat,
      (arrangements base slots).value = min (Nat.pow base slots) (twoPow 128 - 1) ∧
        (arrangements base slots).events =
          (if twoPow 128 ≤ Nat.pow base slots then [.countSaturated base slots] else []) ∧
        (Event.countSaturated base slots).level = "TRACE" ∧
        (Event.countSaturated base slots).message = "Permutation count saturated") ∧
    ∀ {w : Nat} (p : Pattern w),
      (p.unknownCount ≤ 127 →
        p.completionCount.value = twoPow p.unknownCount ∧ p.completionCount.events = []) ∧
      (128 ≤ p.unknownCount →
        p.completionCount.value = twoPow 128 - 1 ∧
          p.completionCount.events = [.countSaturated 2 p.unknownCount]) := by
  refine ⟨fun base slots => ⟨value_arrangements base slots, ?_, rfl, rfl⟩, fun p => ⟨?_, ?_⟩⟩
  · have hlimit := countLimit_add_one
    rw [arrangements_eq]
    by_cases h : Nat.pow base slots ≤ countLimit
    · rw [if_pos h, if_neg (by omega)]
    · rw [if_neg h, if_pos (by omega)]
  · intro h
    rw [Pattern.completionCount_of_lt (by omega)]
    exact ⟨rfl, rfl⟩
  · intro h
    rw [Pattern.completionCount_of_ge h]
    exact ⟨rfl, rfl⟩

example : arrangements countLimit 1 = ⟨countLimit, []⟩ ∧
    arrangements 2 128 = ⟨countLimit, [.countSaturated 2 128]⟩ := by decide

end BitPattern
