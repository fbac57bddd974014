import BitPattern.Pattern
import Mathlib.Order.Bounds.Basic

set_option autoImplicit false

namespace BitPattern

theorem Pattern.isComplete_iff {w : Nat} {p : Pattern w} :
    p.isComplete = true ↔ ∀ i < w, p.get i ≠ .unknown := by
  have hknown : ∀ t : Trit, t.isKnown = true ↔ t ≠ .unknown := by intro t; cases t <;> decide
  have hp := p.length_toList
  rw [Pattern.isComplete, List.all_eq_true, List.forall_mem_iff_forall_getElem]
  constructor
  · intro h i hi
    have hbit := h i (by omega)
    rwa [hknown, ← p.get_eq_getElem] at hbit
  · intro h i hi
    rw [hknown, ← p.get_eq_getElem hi]
    exact h i (by omega)

theorem Trit.ofBool_beq_one {t : Trit} (h : t ≠ .unknown) : Trit.ofBool (t == .one) = t := by
  revert h
  cases t <;> decide

theorem Trit.ofBool_ne_unknown (b : Bool) : Trit.ofBool b ≠ .unknown := by cases b <;> decide

theorem Pattern.ofWord_map_beq_one {w : Nat} {p : Pattern w} (h : p.isComplete = true) :
    Pattern.ofWord (p.map (· == .one)) = p := by
  apply Row.ext_get
  intro i hi
  rw [Pattern.get_ofWord _ hi, Row.get_map _ _ hi]
  exact Trit.ofBool_beq_one (Pattern.isComplete_iff.1 h i hi)

theorem Pattern.ofWord_injective {w : Nat} {a b : Word w}
    (h : Pattern.ofWord a = Pattern.ofWord b) : a = b := by
  have ha : (Pattern.ofWord a).Matches a := Pattern.matches_ofWord.2 rfl
  rw [h] at ha
  exact Pattern.matches_ofWord.1 ha

theorem Pattern.isComplete_ofWord {w : Nat} (a : Word w) :
    (Pattern.ofWord a).isComplete = true := by
  rw [Pattern.isComplete_iff]
  intro i hi
  rw [Pattern.get_ofWord a hi]
  exact Trit.ofBool_ne_unknown _

theorem Pattern.toWord_eq_ok {w : Nat} {p : Pattern w} {a : Word w} :
    p.toWord = .ok a ↔ p = .ofWord a := by
  rw [Pattern.toWord, Pattern.complete?]
  constructor
  · intro h
    by_cases hc : p.isComplete = true
    · rw [if_pos hc] at h
      cases h
      exact (Pattern.ofWord_map_beq_one hc).symm
    · rw [if_neg hc] at h
      cases h
  · rintro rfl
    have hc := Pattern.isComplete_ofWord a
    rw [if_pos hc, Pattern.ofWord_injective (Pattern.ofWord_map_beq_one hc)]

theorem Pattern.toWord_ofWord {w : Nat} (a : Word w) : (Pattern.ofWord a).toWord = .ok a :=
  Pattern.toWord_eq_ok.2 rfl

theorem Pattern.exists_unknown_of_not_isComplete {w : Nat} {p : Pattern w}
    (h : p.isComplete ≠ true) : ∃ i, i ∈ p.unknownPositions := by
  by_contra hnone
  apply h
  rw [Pattern.isComplete_iff]
  intro i hi hunknown
  exact hnone ⟨i, Pattern.mem_unknownPositions.2 ⟨hi, hunknown⟩⟩

theorem Pattern.isLeast_headD_unknownPositions {w : Nat} {p : Pattern w}
    (h : p.isComplete ≠ true) :
    IsLeast {i | i < w ∧ p.get i = .unknown} (p.unknownPositions.headD 0) := by
  have hset : {i | i < w ∧ p.get i = .unknown} = {i | i ∈ p.unknownPositions} := by
    ext i
    exact Pattern.mem_unknownPositions.symm
  have hsorted : p.unknownPositions.Pairwise (· < ·) := List.pairwise_lt_range.filter _
  obtain ⟨m, hm⟩ := Pattern.exists_unknown_of_not_isComplete h
  rw [hset]
  cases hp : p.unknownPositions with
  | nil =>
    rw [hp] at hm
    cases hm
  | cons i is =>
    rw [hp, List.pairwise_cons] at hsorted
    refine ⟨List.mem_cons_self, fun j hj => ?_⟩
    rcases List.mem_cons.1 hj with rfl | hj
    · exact Nat.le_refl _
    · exact Nat.le_of_lt (hsorted.1 j hj)

theorem Pattern.toWord_eq_error {w : Nat} {p : Pattern w} {f : Fault} :
    p.toWord = .error f ↔
      ∃ i, f = .unknownBit i ∧ IsLeast {j | j < w ∧ p.get j = .unknown} i := by
  rw [Pattern.toWord, Pattern.complete?]
  by_cases hc : p.isComplete = true
  · rw [if_pos hc]
    constructor
    · intro h
      cases h
    · rintro ⟨i, -, ⟨hi, hunknown⟩, -⟩
      exact absurd hunknown (Pattern.isComplete_iff.1 hc i hi)
  · have hleast := Pattern.isLeast_headD_unknownPositions hc
    rw [if_neg hc]
    constructor
    · intro h
      cases h
      exact ⟨_, rfl, hleast⟩
    · rintro ⟨i, rfl, hi⟩
      rw [hleast.unique hi]

end BitPattern
