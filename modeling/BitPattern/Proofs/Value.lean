import BitPattern.Proofs.Words
import Mathlib.Algebra.BigOperators.Ring.Finset
import Mathlib.Data.List.GetD
import Mathlib.Data.Nat.Digits.Defs

set_option autoImplicit false

namespace BitPattern

def Word.value {w : Nat} (a : Word w) : Nat := ∑ i ∈ Finset.range w, (a.get i).toNat * twoPow i

theorem sum_digits (b : Nat) (ds : List Nat) :
    ∑ i ∈ Finset.range ds.length, ds.getD i 0 * Nat.pow b i = Nat.ofDigits b ds := by
  induction ds with
  | nil => rfl
  | cons d ds ih =>
    have hplace : ∀ i, (d :: ds).getD (i + 1) 0 * Nat.pow b (i + 1) =
        b * (ds.getD i 0 * Nat.pow b i) := by
      intro i
      rw [List.getD_cons_succ, Nat.pow_eq, Nat.pow_eq, Nat.pow_succ']
      exact Nat.mul_left_comm _ _ _
    rw [List.length_cons, Finset.sum_range_succ', Finset.sum_congr rfl fun i _ => hplace i,
      ← Finset.mul_sum, ih, Nat.ofDigits_cons, Nat.add_comm]
    simp

theorem fromBits_eq_ofDigits (bs : List Bool) :
    fromBits bs = Nat.ofDigits 2 (bs.map Bool.toNat) := by
  induction bs with
  | nil => rfl
  | cons b bs ih => simp [fromBits, ih, Nat.ofDigits_cons]

theorem Word.value_eq_toNat {w : Nat} (a : Word w) : a.value = a.toNat := by
  have hget : ∀ i, (a.toList.map Bool.toNat).getD i 0 = (a.get i).toNat :=
    fun i => List.getD_map a.toList false Bool.toNat
  have hsum := sum_digits 2 (a.toList.map Bool.toNat)
  rw [List.length_map, a.length_toList] at hsum
  rw [Word.toNat, fromBits_eq_ofDigits, ← hsum, Word.value]
  exact Finset.sum_congr rfl fun i _ => by rw [hget]; rfl

theorem Word.testBit_value {w : Nat} (a : Word w) (i : Nat) : a.value.testBit i = a.get i := by
  rw [a.value_eq_toNat, a.testBit_toNat]

theorem Word.value_lt {w : Nat} (a : Word w) : a.value < twoPow w := by
  rw [a.value_eq_toNat]
  exact a.toNat_lt

theorem Word.value_eq_of_testBit {w n : Nat} {a : Word w} (hn : n < twoPow w)
    (h : ∀ i < w, a.get i = n.testBit i) : a.value = n := by
  apply Nat.eq_of_testBit_eq
  intro i
  rw [Word.testBit_value]
  by_cases hi : i < w
  · exact h i hi
  · have hle : twoPow w ≤ twoPow i := Nat.pow_le_pow_right Nat.two_pos (Nat.le_of_not_lt hi)
    rw [Row.get_of_le a (Nat.le_of_not_lt hi)]
    exact (Nat.testBit_lt_two_pow (Nat.lt_of_lt_of_le hn hle)).symm

/-- Turning the lowest `w` digits of a number gives what is left of `2 ^ w - 1`. -/
theorem testBit_twoPow_sub_succ {w m i : Nat} (h : m < twoPow w) (hi : i < w) :
    (twoPow w - (m + 1)).testBit i = !m.testBit i := by
  have hbit := Nat.testBit_two_pow_sub_succ h i
  rwa [decide_eq_true hi, Bool.true_and] at hbit

theorem Word.value_not {w : Nat} (a : Word w) : (~~~a).value = twoPow w - 1 - a.value := by
  have hpos : 0 < twoPow w := Nat.two_pow_pos w
  apply Word.value_eq_of_testBit (by omega)
  intro i hi
  rw [Word.get_not a hi, ← a.testBit_value, Nat.sub_sub, Nat.add_comm 1]
  exact (testBit_twoPow_sub_succ a.value_lt hi).symm

theorem Word.value_and {w : Nat} (a b : Word w) : (a &&& b).value = a.value &&& b.value := by
  apply Word.value_eq_of_testBit (Nat.and_lt_two_pow _ b.value_lt)
  intro i hi
  rw [Nat.testBit_and, a.testBit_value, b.testBit_value]
  exact Word.get_apply .and a b hi

theorem Word.value_or {w : Nat} (a b : Word w) : (a ||| b).value = a.value ||| b.value := by
  apply Word.value_eq_of_testBit (Nat.or_lt_two_pow a.value_lt b.value_lt)
  intro i hi
  rw [Nat.testBit_or, a.testBit_value, b.testBit_value]
  exact Word.get_apply .or a b hi

theorem Word.value_xor {w : Nat} (a b : Word w) : (a ^^^ b).value = a.value ^^^ b.value := by
  apply Word.value_eq_of_testBit (Nat.xor_lt_two_pow a.value_lt b.value_lt)
  intro i hi
  rw [Nat.testBit_xor, a.testBit_value, b.testBit_value]
  exact Word.get_apply .xor a b hi

theorem Word.value_shiftLeft {w : Nat} (a : Word w) (k : Nat) :
    (a <<< k).value = a.value * twoPow k % twoPow w := by
  apply Word.value_eq_of_testBit (Nat.mod_lt _ (Nat.two_pow_pos w))
  intro i hi
  have hget : (a <<< k).get i = if i < w ∧ k ≤ i then a.get (i - k) else default :=
    Row.get_shiftLeft a k i
  rw [hget]
  simp [twoPow, Nat.testBit_mod_two_pow, Nat.testBit_mul_two_pow, hi, a.testBit_value]

theorem Word.value_shiftRight {w : Nat} (a : Word w) (k : Nat) :
    (a >>> k).value = a.value / twoPow k := by
  apply Word.value_eq_of_testBit (Nat.lt_of_le_of_lt (Nat.div_le_self _ _) a.value_lt)
  intro i _
  have hget : (a >>> k).get i = a.get (i + k) := Row.get_shiftRight a k i
  rw [hget, ← a.testBit_value]
  exact (Nat.testBit_div_two_pow a.value i).symm

theorem count_digits_fromBits (bs : List Bool) :
    (Nat.digits 2 (fromBits bs)).count 1 = bs.count true := by
  induction bs with
  | nil => simp [fromBits]
  | cons b bs ih =>
    by_cases h : b = false ∧ fromBits bs = 0
    · -- leading zeros are not digits
      obtain ⟨rfl, h0⟩ := h
      simpa [fromBits, h0] using ih
    · have hb := b.toNat_lt
      have hne : b.toNat ≠ 0 ∨ fromBits bs ≠ 0 := by
        cases b
        · exact .inr fun h0 => h ⟨rfl, h0⟩
        · exact .inl (by decide)
      rw [fromBits, Nat.digits_add 2 (by decide) _ _ hb hne, List.count_cons, List.count_cons, ih]
      cases b <;> rfl

theorem Word.count_digits_value {w : Nat} (a : Word w) :
    (Nat.digits 2 a.value).count 1 = a.countOnes := by
  rw [a.value_eq_toNat]
  exact count_digits_fromBits a.toList

theorem Word.countZeros_add_countOnes {w : Nat} (a : Word w) :
    a.countZeros + a.countOnes = w := by
  have hle : a.countOnes ≤ a.toList.length := List.count_le_length
  rw [a.length_toList] at hle
  exact Nat.sub_add_cancel hle

/-- The operations on words are those on numbers below `2 ^ w`: complements to the largest of them,
the bitwise operations, products cut off at `2 ^ w` and quotients rounded down. -/
theorem Word.value_arithmetic {w : Nat} (a b : Word w) (k : Nat) :
    (a.value < twoPow w ∧ (~~~a).value = twoPow w - 1 - a.value) ∧
      (a &&& b).value = a.value &&& b.value ∧
      (a ||| b).value = a.value ||| b.value ∧
      (a ^^^ b).value = a.value ^^^ b.value ∧
      (a <<< k).value = a.value * twoPow k % twoPow w ∧
      (a >>> k).value = a.value / twoPow k ∧
      a.countOnes = (Nat.digits 2 a.value).count 1 ∧
      a.countZeros + a.countOnes = w :=
  ⟨⟨a.value_lt, a.value_not⟩, a.value_and b, a.value_or b, a.value_xor b, a.value_shiftLeft k,
    a.value_shiftRight k, a.count_digits_value.symm, a.countZeros_add_countOnes⟩

end BitPattern
