import BitPattern.Pattern.Completion
import BitPattern.Proofs.Words
import Mathlib.Data.List.Forall2
import Mathlib.Data.Set.Function

/-!
The numbering of a pattern's words. Gathering the bits at the unknown positions undoes filling
them, so that every word of the pattern has an index, and the number a word stands for grows with
its index. Both follow the list of bits from the least significant end, where the next unknown bit
takes the lowest digit of the index and leaves the others to the rest.
-/

set_option autoImplicit false

namespace BitPattern

/-- The number whose binary digits are the bits at the unknown positions. -/
def gatherBits : List Trit → List Bool → Nat
  | .unknown :: ts, b :: bs => b.toNat + 2 * gatherBits ts bs
  | _ :: ts, _ :: bs => gatherBits ts bs
  | _, _ => 0

theorem toNat_lowDigit (k : Nat) : (k % 2 == 1).toNat = k % 2 := by
  rcases Nat.mod_two_eq_zero_or_one k with h | h <;> simp [h]

theorem gatherBits_lt (ts : List Trit) (bs : List Bool) :
    gatherBits ts bs < twoPow (ts.countP Trit.isUnknown) := by
  induction ts generalizing bs with
  | nil => exact Nat.two_pow_pos _
  | cons t ts ih =>
    cases bs with
    | nil => cases t <;> exact Nat.two_pow_pos _
    | cons b bs =>
      have hbs := ih bs
      cases t with
      | zero => simpa [gatherBits, Trit.isUnknown] using hbs
      | one => simpa [gatherBits, Trit.isUnknown] using hbs
      | unknown =>
        have hb := b.toNat_lt
        rw [List.countP_cons_of_pos rfl, twoPow_succ, gatherBits]
        omega

theorem fillBits_gatherBits {ts : List Trit} {bs : List Bool}
    (h : List.Forall₂ Trit.Allows ts bs) : fillBits ts (gatherBits ts bs) = bs := by
  induction h with
  | nil => rfl
  | @cons t b ts bs hb _ ih =>
    cases t with
    | zero => rw [gatherBits, fillBits, ih, show b = false from hb]; simp
    | one => rw [gatherBits, fillBits, ih, show b = true from hb]; simp
    | unknown =>
      have hb : (b.toNat == 1) = b := by cases b <;> rfl
      rw [gatherBits, fillBits, lowDigit, highDigits, hb, ih]

theorem fromBits_fillBits_lt {ts : List Trit} {j k : Nat} (hjk : j < k)
    (hk : k < twoPow (ts.countP Trit.isUnknown)) :
    fromBits (fillBits ts j) < fromBits (fillBits ts k) := by
  induction ts generalizing j k with
  | nil =>
    rw [List.countP_nil, twoPow_zero] at hk
    omega
  | cons t ts ih =>
    cases t with
    | zero =>
      have h := ih hjk (by simpa [Trit.isUnknown] using hk)
      simp only [fillBits, fromBits]
      omega
    | one =>
      have h := ih hjk (by simpa [Trit.isUnknown] using hk)
      simp only [fillBits, fromBits]
      omega
    | unknown =>
      rw [List.countP_cons_of_pos rfl, twoPow_succ] at hk
      simp only [fillBits, fromBits, toNat_lowDigit]
      -- the higher digits decide, and the lowest one only where they agree
      by_cases hh : j / 2 < k / 2
      · have h := ih hh (by omega)
        omega
      · have he : j / 2 = k / 2 := by omega
        rw [he]
        omega

theorem map_getD_fillBits (ts : List Trit) (k : Nat) :
    ((List.range ts.length).filter fun i => (ts.getD i default).isUnknown).map
        (fun i => (fillBits ts k).getD i false) =
      (List.range (ts.countP Trit.isUnknown)).map k.testBit := by
  induction ts generalizing k with
  | nil => rfl
  | cons t ts ih =>
    simp only [List.length_cons, List.range_succ_eq_map, List.filter_cons, List.filter_map,
      List.getD_cons_zero]
    cases t with
    | zero => simpa [fillBits, Trit.isUnknown, Function.comp_def] using ih k
    | one => simpa [fillBits, Trit.isUnknown, Function.comp_def] using ih k
    | unknown =>
      have hd : (k % 2 == 1) = k.testBit 0 := by rw [Nat.testBit_zero]; rfl
      rw [List.countP_cons_of_pos rfl, List.range_succ_eq_map]
      simpa [fillBits, Trit.isUnknown, Function.comp_def, Nat.testBit_succ, hd] using ih (k / 2)

theorem Pattern.map_get_fill {w : Nat} (p : Pattern w) (k : Nat) :
    p.unknownPositions.map (p.fill k).get = (List.range p.unknownCount).map k.testBit := by
  have h := map_getD_fillBits p.toList k
  rw [p.length_toList] at h
  exact h

@[simp] theorem Pattern.length_unknownPositions {w : Nat} (p : Pattern w) :
    p.unknownPositions.length = p.unknownCount := by
  have h := congrArg List.length (p.map_get_fill 0)
  simpa using h

theorem Pattern.fill_clear_iff {w : Nat} {p : Pattern w} {k n : Nat} :
    (∀ i ∈ p.unknownPositions.drop n, (p.fill k).get i = false) ↔
      ∀ j, n ≤ j → j < p.unknownCount → k.testBit j = false := by
  have hdrop : (p.unknownPositions.drop n).map (p.fill k).get =
      (List.range' n (p.unknownCount - n)).map k.testBit := by
    rw [List.map_drop, p.map_get_fill, ← List.map_drop, List.range_eq_range', List.drop_range']
    simp
  have hall := congrArg (fun bs => ∀ b ∈ bs, b = false) hdrop
  simp only [List.forall_mem_map, List.mem_range'_1] at hall
  rw [hall]
  constructor
  · intro h j hj hju
    exact h j ⟨hj, by omega⟩
  · intro h j hj
    exact h j hj.1 (by omega)

theorem Pattern.lt_twoPow_iff {w : Nat} {p : Pattern w} {k : Nat}
    (hk : k < twoPow p.unknownCount) (n : Nat) :
    k < twoPow n ↔ ∀ i ∈ p.unknownPositions.drop n, (p.fill k).get i = false := by
  rw [Pattern.fill_clear_iff]
  constructor
  · intro hn j hj _
    exact Nat.testBit_lt_two_pow (Nat.lt_of_lt_of_le hn (Nat.pow_le_pow_right Nat.two_pos hj))
  · intro h
    apply Nat.lt_pow_two_of_testBit
    intro j hj
    by_cases hju : j < p.unknownCount
    · exact h j hj hju
    · exact Nat.testBit_lt_two_pow
        (Nat.lt_of_lt_of_le hk (Nat.pow_le_pow_right Nat.two_pos (Nat.le_of_not_lt hju)))

theorem Pattern.mem_words_iff_forall₂ {w : Nat} {p : Pattern w} {a : Word w} :
    a ∈ p.words ↔ List.Forall₂ Trit.Allows p.toList a.toList := by
  have hp := p.length_toList
  have ha := a.length_toList
  rw [List.forall₂_iff_get]
  constructor
  · intro h
    refine ⟨by omega, fun i h₁ h₂ => ?_⟩
    have hi := h i (by omega)
    rwa [p.get_eq_getElem h₁, a.get_eq_getElem h₂] at hi
  · rintro ⟨-, h⟩ i hi
    have h₁ : i < p.toList.length := by omega
    have h₂ : i < a.toList.length := by omega
    rw [p.get_eq_getElem h₁, a.get_eq_getElem h₂]
    exact h i h₁ h₂

def Pattern.gather {w : Nat} (p : Pattern w) (a : Word w) : Nat := gatherBits p.toList a.toList

theorem Pattern.gather_lt {w : Nat} (p : Pattern w) (a : Word w) :
    p.gather a < twoPow p.unknownCount :=
  gatherBits_lt _ _

theorem Pattern.fill_gather {w : Nat} {p : Pattern w} {a : Word w} (h : a ∈ p.words) :
    p.fill (p.gather a) = a := by
  have hb := fillBits_gatherBits (Pattern.mem_words_iff_forall₂.1 h)
  cases a
  simpa [Pattern.fill, Pattern.gather] using hb

theorem Pattern.toNat_fill_lt {w : Nat} {p : Pattern w} {j k : Nat} (hjk : j < k)
    (hk : k < twoPow p.unknownCount) : (p.fill j).toNat < (p.fill k).toNat :=
  fromBits_fillBits_lt hjk hk

theorem Pattern.injOn_fill {w : Nat} (p : Pattern w) :
    Set.InjOn p.fill {k | k < twoPow p.unknownCount} := by
  intro j hj k hk h
  rcases Nat.lt_trichotomy j k with hjk | hjk | hkj
  · have hlt := Pattern.toNat_fill_lt hjk hk
    rw [h] at hlt
    exact absurd hlt (Nat.lt_irrefl _)
  · exact hjk
  · have hlt := Pattern.toNat_fill_lt hkj hj
    rw [h] at hlt
    exact absurd hlt (Nat.lt_irrefl _)

/-- The indices of at most `n` digits number the words that are clear at all unknown positions
past the first `n`. -/
theorem Pattern.bijOn_fill {w : Nat} (p : Pattern w) (n : Nat) :
    Set.BijOn p.fill {k | k < twoPow p.unknownCount ∧ k < twoPow n}
      {a | a ∈ p.words ∧ ∀ i ∈ p.unknownPositions.drop n, a.get i = false} := by
  refine ⟨?_, ?_, ?_⟩
  · rintro k ⟨hk, hn⟩
    exact ⟨p.matches_fill k, (Pattern.lt_twoPow_iff hk n).1 hn⟩
  · intro j hj k hk h
    exact p.injOn_fill hj.1 hk.1 h
  · rintro a ⟨ha, hclear⟩
    have hg := p.gather_lt a
    have hf := Pattern.fill_gather ha
    refine ⟨p.gather a, ⟨hg, (Pattern.lt_twoPow_iff hg n).2 ?_⟩, hf⟩
    rwa [hf]

theorem Pattern.value_completion_eq_ok {w : Nat} {p : Pattern w} {k : Nat} {a : Word w} :
    (p.completion k).value = .ok a ↔ k < twoPow p.unknownCount ∧ p.fill k = a := by
  by_cases hk : k < twoPow p.unknownCount
  · rw [Pattern.completion_of_lt hk]
    constructor
    · intro h
      exact ⟨hk, Except.ok.inj h⟩
    · rintro ⟨-, rfl⟩
      rfl
  · rw [Pattern.completion_of_not_lt hk]
    constructor
    · intro h
      cases h
    · rintro ⟨h, -⟩
      exact absurd h hk

theorem Pattern.bijOn_completion {w : Nat} (p : Pattern w) (n : Nat) :
    Set.BijOn (fun k => (p.completion k).value) {k | k < twoPow p.unknownCount ∧ k < twoPow n}
      (Except.ok '' {a | a ∈ p.words ∧ ∀ i ∈ p.unknownPositions.drop n, a.get i = false}) := by
  have hok : Function.Injective (Except.ok : Word w → Except Fault (Word w)) :=
    fun _ _ h => Except.ok.inj h
  refine (hok.injOn.bijOn_image.comp (p.bijOn_fill n)).congr fun k hk => ?_
  exact (Pattern.value_completion_eq_ok.2 ⟨hk.1, rfl⟩).symm

/-- Completions number the words of a pattern without repetition and in the order of the numbers
they stand for; past 128 unknown bits, the words that are clear at the others. -/
theorem Pattern.completion_enumerates {w : Nat} (p : Pattern w) :
    (p.unknownCount ≤ 128 →
        Set.BijOn (fun k => (p.completion k).value) {k | k < twoPow p.unknownCount}
          (Except.ok '' {a | p.overlaps (.ofWord a) = true})) ∧
      (128 < p.unknownCount →
        Set.BijOn (fun k => (p.completion k).value) {k | k < twoPow 128}
          (Except.ok '' {a | p.overlaps (.ofWord a) = true ∧
            ∀ i ∈ p.unknownPositions.drop 128, a.get i = false})) ∧
      (∀ j k a b, j < k → (p.completion j).value = .ok a → (p.completion k).value = .ok b →
        a.toNat < b.toNat) := by
  simp only [Pattern.overlaps_ofWord]
  refine ⟨?_, ?_, ?_⟩
  · intro _
    have h := p.bijOn_completion p.unknownCount
    rw [List.drop_of_length_le (by simp)] at h
    simpa using h
  · intro hu
    have h := p.bijOn_completion 128
    have hpow : twoPow 128 ≤ twoPow p.unknownCount := Nat.pow_le_pow_right Nat.two_pos hu.le
    have hs : {k | k < twoPow p.unknownCount ∧ k < twoPow 128} = {k | k < twoPow 128} := by
      ext k
      exact and_iff_right_of_imp fun hk => Nat.lt_of_lt_of_le hk hpow
    rwa [hs] at h
  · intro j k a b hjk ha hb
    obtain ⟨-, rfl⟩ := Pattern.value_completion_eq_ok.1 ha
    obtain ⟨hk, rfl⟩ := Pattern.value_completion_eq_ok.1 hb
    exact Pattern.toNat_fill_lt hjk hk

end BitPattern
