import BitPattern.Pattern.Solution
import BitPattern.Proofs.Gates
import Mathlib.Order.Bounds.Basic

/-!
Solving backwards against the words of the patterns. A solution stands for exactly the words that
give the result with every word of the known operand, and the fault names the lowest position
that rules a solution out.
-/

set_option autoImplicit false

namespace BitPattern

theorem Pattern.obstacle?_eq_some_iff {w : Nat} {r : Pattern w} {g : Gate} {k : Pattern w}
    {i : Nat} : r.obstacle? g k = some i ↔
      IsLeast {j | j < w ∧ g.Unsolvable (r.get j) (k.get j)} i := by
  rw [Pattern.obstacle?_eq_some]
  simp only [ne_eq, Gate.solve?_eq_none]
  constructor
  · rintro ⟨hi, hu, hlow⟩
    refine ⟨⟨hi, hu⟩, fun j hj => ?_⟩
    by_contra hji
    exact hlow j (by omega) hj.2
  · rintro ⟨⟨hi, hu⟩, hlow⟩
    refine ⟨hi, hu, fun j hj huj => ?_⟩
    have hij := hlow (show j < w ∧ _ from ⟨by omega, huj⟩)
    omega

theorem Pattern.value_solve_eq_ok {w : Nat} {r : Pattern w} {g : Gate} {k x : Pattern w} :
    (r.solve g k).value = .ok x ↔ ∀ i < w, g.solve? (r.get i) (k.get i) = some (x.get i) := by
  cases ho : r.obstacle? g k with
  | some i =>
    obtain ⟨hi, hn, -⟩ := Pattern.obstacle?_eq_some.1 ho
    rw [Pattern.solve_of_obstacle ho]
    constructor
    · intro h
      cases h
    · intro h
      rw [h i hi] at hn
      cases hn
  | none =>
    have hsolved := Pattern.obstacle?_eq_none.1 ho
    have hget : ∀ i < w, g.solve? (r.get i) (k.get i) =
        some ((r.zipWith (fun r k => (g.solve? r k).getD default) k).get i) := by
      intro i hi
      obtain ⟨x, hx⟩ := Option.ne_none_iff_exists'.1 (hsolved i hi)
      rw [Row.get_zipWith _ _ _ hi, hx, Option.getD_some]
    rw [Pattern.solve_of_no_obstacle ho]
    constructor
    · intro h
      cases h
      exact hget
    · intro h
      refine congrArg Except.ok (Row.ext_get fun i hi => ?_)
      exact Option.some.inj ((hget i hi).symm.trans (h i hi))

theorem Pattern.value_solve_eq_error {w : Nat} {r : Pattern w} {g : Gate} {k : Pattern w}
    {f : Fault} : (r.solve g k).value = .error f ↔
      ∃ i, f = .unsolvable g i ∧ IsLeast {j | j < w ∧ g.Unsolvable (r.get j) (k.get j)} i := by
  simp only [← Pattern.obstacle?_eq_some_iff]
  cases ho : r.obstacle? g k with
  | some i =>
    rw [Pattern.solve_of_obstacle ho]
    constructor
    · intro h
      cases h
      exact ⟨i, rfl, rfl⟩
    · rintro ⟨j, rfl, hj⟩
      cases hj
      rfl
  | none =>
    rw [Pattern.solve_of_no_obstacle ho]
    constructor
    · intro h
      cases h
    · rintro ⟨j, -, hj⟩
      cases hj

theorem Pattern.value_solve_eq_unsolvable {w : Nat} {r : Pattern w} {g : Gate} {k : Pattern w}
    {i : Nat} : (r.solve g k).value = .error (.unsolvable g i) ↔
      IsLeast {j | j < w ∧ g.Unsolvable (r.get j) (k.get j)} i := by
  rw [Pattern.value_solve_eq_error]
  constructor
  · rintro ⟨j, hj, hleast⟩
    cases hj
    exact hleast
  · intro hleast
    exact ⟨i, rfl, hleast⟩

theorem Pattern.exists_solve_iff {w : Nat} {r : Pattern w} {g : Gate} {k : Pattern w} :
    (∃ x, (r.solve g k).value = .ok x) ↔ ∀ i < w, g.solve? (r.get i) (k.get i) ≠ none := by
  simp only [Pattern.value_solve_eq_ok, Option.ne_none_iff_exists']
  constructor
  · rintro ⟨x, hx⟩ i hi
    exact ⟨x.get i, hx i hi⟩
  · intro h
    exact Row.exists_of_forall h

/-- Meeting the result with every word of the known operand is meeting it at every position. -/
theorem Pattern.forall_apply_mem_words {w : Nat} {r : Pattern w} {g : Gate} {k : Pattern w}
    {a : Word w} : (∀ b ∈ k.words, a.apply g b ∈ r.words) ↔
      ∀ i < w, ∀ b, (k.get i).Allows b → (r.get i).Allows (g.eval (a.get i) b) := by
  rw [← Pattern.forall_words_iff]
  refine forall₂_congr fun b _ => ?_
  rw [Pattern.mem_words]
  refine forall₂_congr fun i hi => ?_
  rw [Word.get_apply g a b hi]

/-- A solution is sound and misses nothing, and the fault is at the lowest position that has no
solution. -/
theorem Pattern.solve_exact {w : Nat} (r : Pattern w) (g : Gate) (k : Pattern w) :
    (∀ x, (r.solve g k).value = .ok x →
        x.words = {a | ∀ b ∈ k.words, a.apply g b ∈ r.words}) ∧
      (∀ i, (r.solve g k).value = .error (.unsolvable g i) ↔
        IsLeast {j | j < w ∧ g.Unsolvable (r.get j) (k.get j)} i) ∧
      ((∃ x, (r.solve g k).value = .ok x) ↔ ∀ i < w, ¬g.Unsolvable (r.get i) (k.get i)) := by
  refine ⟨?_, ?_, ?_⟩
  · intro x hx
    rw [Pattern.value_solve_eq_ok] at hx
    ext a
    rw [Set.mem_ofPred_eq, Pattern.forall_apply_mem_words, Pattern.mem_words]
    refine forall₂_congr fun i hi => ?_
    exact Gate.allows_of_solve? (hx i hi) (a.get i)
  · intro i
    rw [Pattern.value_solve_eq_error]
    constructor
    · rintro ⟨j, hj, hleast⟩
      cases hj
      exact hleast
    · intro hleast
      exact ⟨i, rfl, hleast⟩
  · constructor
    · rintro ⟨x, hx⟩ i hi hu
      rw [Pattern.value_solve_eq_ok] at hx
      have hn := Gate.solve?_eq_none.2 hu
      rw [hx i hi] at hn
      cases hn
    · intro h
      cases hv : (r.solve g k).value with
      | ok x => exact ⟨x, rfl⟩
      | error f =>
        obtain ⟨i, -, ⟨hi, hu⟩, -⟩ := Pattern.value_solve_eq_error.1 hv
        exact absurd hu (h i hi)

end BitPattern
