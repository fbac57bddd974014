import BitPattern.Proofs.Bytes
import BitPattern.Proofs.Definite
import BitPattern.Scalar
import Mathlib.Data.Int.Bitwise

set_option autoImplicit false

namespace BitPattern

theorem Scalar.width_mod_eight (s : Scalar) : s.width % 8 = 0 := by cases s <;> rfl

theorem Scalar.width_pos (s : Scalar) : 0 < s.width := by cases s <;> decide

theorem Scalar.twoPow_width (s : Scalar) : twoPow s.width = 2 * twoPow (s.width - 1) := by
  have h := twoPow_succ (s.width - 1)
  rwa [Nat.sub_add_cancel s.width_pos] at h

theorem testBit_shiftRight (n : Int) (k i : Nat) :
    (n.shiftRight k).testBit i = n.testBit (k + i) := by
  cases n with
  | ofNat m => exact Nat.testBit_shiftRight m
  | negSucc m => exact congrArg not (Nat.testBit_shiftRight m)

theorem testBit_lowByte (n : Int) {i : Nat} (h : i < 8) :
    (UInt8.ofNat (n % 256).toNat).toNat.testBit i = n.testBit i := by
  have hlt : (n % 256).toNat < 2 ^ 8 := by omega
  have hbyte : twoPow 8 = 256 := rfl
  have hbit : ∀ m : Nat, (m % twoPow 8).testBit i = m.testBit i :=
    fun m => (Nat.testBit_mod_two_pow m 8 i).trans (by simp [h])
  rw [UInt8.toNat_ofNat_of_lt' hlt]
  cases n with
  | ofNat m => exact hbit m
  | negSucc m =>
    have hlow : (Int.negSucc m % 256).toNat = twoPow 8 - (m % twoPow 8 + 1) := by
      rw [hbyte, Int.negSucc_eq]
      omega
    rw [hlow, testBit_twoPow_sub_succ (Nat.mod_lt m (Nat.two_pow_pos 8)) h, hbit]
    rfl

theorem Scalar.get_toWord (s : Scalar) (n : Int) {i : Nat} (h : i < s.width) :
    (s.toWord n).get i = n.testBit i := by
  have hwidth := s.width_mod_eight
  have hj : i / 8 < s.width / 8 := by omega
  have hbyte : (s.toBytes n).getD (i / 8) 0 =
      UInt8.ofNat (n.shiftRight (8 * (i / 8)) % 256).toNat := by
    simp [Scalar.toBytes, hj]
  have hplace : 8 * (i / 8) + i % 8 = i := by omega
  rw [Scalar.toWord, Word.ofBytes, Row.get_ofFn, if_pos h, hbyte, testBit_lowByte _ (by omega),
    testBit_shiftRight, hplace]

theorem fromBytes_eq_ofDigits (bytes : List UInt8) :
    fromBytes bytes = Nat.ofDigits 256 (bytes.map UInt8.toNat) := by
  induction bytes with
  | nil => rfl
  | cons b bytes ih => simp [fromBytes, ih, Nat.ofDigits_cons]

theorem Word.fromBytes_toBytes {w : Nat} (a : Word w) : fromBytes a.toBytes = a.value := by
  rw [fromBytes_eq_ofDigits, a.map_toNat_toBytes, ofDigits_octets, a.value_eq_toNat]
  rfl

theorem Scalar.ofWord_eq (s : Scalar) (a : Word s.width) :
    s.ofWord a = if s.isSigned ∧ twoPow (s.width - 1) ≤ a.value then
      Int.negSucc (twoPow s.width - (a.value + 1)) else a.value := by
  have hlt := a.value_lt
  have hneg : Int.negSucc (twoPow s.width - (a.value + 1)) = a.value - twoPow s.width := by
    rw [Int.negSucc_eq]
    omega
  rw [Scalar.ofWord, Scalar.ofBytes, a.fromBytes_toBytes, hneg]

theorem Scalar.holds_ofNat {s : Scalar} {m : Nat} :
    s.Holds m ↔ m < twoPow s.width ∧ ¬(s.isSigned ∧ twoPow (s.width - 1) ≤ m) := by
  have hwidth := s.twoPow_width
  unfold Scalar.Holds
  cases s.isSigned
  · simp
  · simp only [if_true, true_and]
    omega

theorem Scalar.holds_negSucc {s : Scalar} {m : Nat} :
    s.Holds (Int.negSucc m) ↔ s.isSigned ∧ m < twoPow (s.width - 1) := by
  rw [Int.negSucc_eq]
  unfold Scalar.Holds
  cases s.isSigned
  · simp
    omega
  · simp only [if_true, true_and]
    omega

theorem Scalar.holds_ofWord (s : Scalar) (a : Word s.width) : s.Holds (s.ofWord a) := by
  have hlt := a.value_lt
  have hwidth := s.twoPow_width
  rw [s.ofWord_eq]
  by_cases hneg : s.isSigned ∧ twoPow (s.width - 1) ≤ a.value
  · rw [if_pos hneg, Scalar.holds_negSucc]
    exact ⟨hneg.1, by omega⟩
  · rw [if_neg hneg, Scalar.holds_ofNat]
    exact ⟨hlt, hneg⟩

theorem Scalar.testBit_ofWord (s : Scalar) (a : Word s.width) {i : Nat} (h : i < s.width) :
    (s.ofWord a).testBit i = a.get i := by
  rw [s.ofWord_eq, ← a.testBit_value]
  by_cases hneg : s.isSigned ∧ twoPow (s.width - 1) ≤ a.value
  · rw [if_pos hneg]
    exact (congrArg not (testBit_twoPow_sub_succ a.value_lt h)).trans (Bool.not_not _)
  · rw [if_neg hneg]
    rfl

theorem Scalar.toWord_ofWord (s : Scalar) (a : Word s.width) : s.toWord (s.ofWord a) = a := by
  apply Row.ext_get
  intro i hi
  rw [s.get_toWord _ hi, s.testBit_ofWord a hi]

theorem Scalar.value_toWord_ofNat {s : Scalar} {m : Nat} (h : m < twoPow s.width) :
    (s.toWord m).value = m :=
  Word.value_eq_of_testBit h fun _ hi => s.get_toWord m hi

theorem Scalar.value_toWord_negSucc {s : Scalar} {m : Nat} (h : m < twoPow s.width) :
    (s.toWord (Int.negSucc m)).value = twoPow s.width - (m + 1) := by
  apply Word.value_eq_of_testBit (by omega)
  intro i hi
  exact (s.get_toWord _ hi).trans (testBit_twoPow_sub_succ h hi).symm

theorem Scalar.ofWord_toWord {s : Scalar} {n : Int} (h : s.Holds n) :
    s.ofWord (s.toWord n) = n := by
  have hwidth := s.twoPow_width
  rw [s.ofWord_eq]
  cases n with
  | ofNat m =>
    obtain ⟨hlt, hhalf⟩ := Scalar.holds_ofNat.1 h
    have hvalue : (s.toWord (Int.ofNat m)).value = m := Scalar.value_toWord_ofNat hlt
    rw [hvalue, if_neg hhalf]
    rfl
  | negSucc m =>
    obtain ⟨hsigned, hhalf⟩ := Scalar.holds_negSucc.1 h
    rw [Scalar.value_toWord_negSucc (by omega), if_pos ⟨hsigned, by omega⟩]
    congr 1
    omega

theorem Scalar.ofPattern_eq_ok {s : Scalar} {p : Pattern s.width} {n : Int} :
    s.ofPattern p = .ok n ↔ s.Holds n ∧ p = s.toPattern n := by
  rw [Scalar.ofPattern, Scalar.toPattern]
  constructor
  · intro h
    cases hp : p.toWord with
    | ok a =>
      rw [hp] at h
      cases h
      rw [s.toWord_ofWord]
      exact ⟨s.holds_ofWord a, Pattern.toWord_eq_ok.1 hp⟩
    | error f =>
      rw [hp] at h
      cases h
  · rintro ⟨hn, rfl⟩
    rw [Pattern.toWord_ofWord]
    exact congrArg Except.ok (Scalar.ofWord_toWord hn)

theorem Scalar.ofPattern_eq_error {s : Scalar} {p : Pattern s.width} {f : Fault} :
    s.ofPattern p = .error f ↔ p.toWord = .error f := by
  rw [Scalar.ofPattern]
  cases p.toWord <;> simp [bind, Except.bind, pure, Except.pure]

/-- Numbers of a format and words of its width are the same thing: the bits of the word are the
digits of the number, nothing is lost either way, and a pattern that is not the pattern of a number
has an unknown bit, the lowest of which is the fault. -/
theorem Scalar.word_codec (s : Scalar) :
    (∀ n, s.Holds n →
        (∀ i < s.width, (s.toWord n).get i = n.testBit i) ∧ s.ofWord (s.toWord n) = n) ∧
      (∀ a, s.Holds (s.ofWord a) ∧ s.toWord (s.ofWord a) = a) ∧
      ∀ p, (∀ n, s.ofPattern p = .ok n ↔ s.Holds n ∧ p = s.toPattern n) ∧
        ∀ f, s.ofPattern p = .error f ↔
          ∃ i, f = .unknownBit i ∧ IsLeast {j | j < s.width ∧ p.get j = .unknown} i := by
  refine ⟨?_, ?_, ?_⟩
  · intro n hn
    exact ⟨fun i hi => s.get_toWord n hi, Scalar.ofWord_toWord hn⟩
  · intro a
    exact ⟨s.holds_ofWord a, s.toWord_ofWord a⟩
  · intro p
    refine ⟨fun n => Scalar.ofPattern_eq_ok, fun f => ?_⟩
    rw [Scalar.ofPattern_eq_error, Pattern.toWord_eq_error]

theorem Scalar.word_codec_int16 :
    Scalar.int16.Holds (-32768) ∧
      (∀ i < Scalar.int16.width,
        (Scalar.int16.toWord (-32768)).get i = (-32768 : Int).testBit i) ∧
      Scalar.int16.ofWord (Scalar.int16.toWord (-32768)) = -32768 :=
  have hholds : Scalar.int16.Holds (-32768) := by decide
  ⟨hholds, (Scalar.word_codec .int16).1 (-32768) hholds⟩

end BitPattern
