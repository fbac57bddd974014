import BitPattern.Proofs.Words
import BitPattern.Pattern.Solution

set_option autoImplicit false

namespace BitPattern

theorem Gate.canSolve_iff {g : Gate} {r k : Trit} :
    g.canSolve r k = true ↔ g.solve? r k ≠ none := by
  rw [Gate.canSolve_eq_isSome, Option.isSome_iff_ne_none]

theorem Gate.canSolve_eq_false {g : Gate} {r k : Trit} :
    g.canSolve r k = false ↔ g.solve? r k = none := by
  simp [Gate.canSolve_eq_isSome]

variable {w : Nat} {r : Pattern w} {g : Gate} {k : Pattern w}

theorem Pattern.canSolve_iff :
    r.canSolve g k = true ↔ ∀ i < w, g.canSolve (r.get i) (k.get i) = true :=
  Row.all_zip _ r k

theorem Pattern.obstacle?_eq_none_iff_canSolve :
    r.obstacle? g k = none ↔ r.canSolve g k = true := by
  simp only [Pattern.obstacle?_eq_none, Pattern.canSolve_iff, Gate.canSolve_iff]

theorem Pattern.obstacle?_eq_some_iff_canSolve {i : Nat} : r.obstacle? g k = some i ↔
    i < w ∧ g.canSolve (r.get i) (k.get i) = false ∧
      ∀ j < i, g.canSolve (r.get j) (k.get j) = true := by
  simp only [Pattern.obstacle?_eq_some, Gate.canSolve_eq_false, Gate.canSolve_iff]

theorem Pattern.solve_of_canSolve (h : r.canSolve g k = true) :
    ∃ x, r.solve g k = ⟨.ok x, []⟩ :=
  ⟨_, Pattern.solve_of_no_obstacle (Pattern.obstacle?_eq_none_iff_canSolve.2 h)⟩

theorem Pattern.solve_of_not_canSolve (h : r.canSolve g k = false) :
    ∃ i < w, (∀ j < i, g.canSolve (r.get j) (k.get j) = true) ∧
      g.canSolve (r.get i) (k.get i) = false ∧
      r.solve g k = ⟨.error (.unsolvable g i), [.unsolvable g i (r.get i) (k.get i)]⟩ := by
  cases ho : r.obstacle? g k with
  | none =>
    rw [Pattern.obstacle?_eq_none_iff_canSolve.1 ho] at h
    cases h
  | some i =>
    obtain ⟨hi, hstuck, hbelow⟩ := Pattern.obstacle?_eq_some_iff_canSolve.1 ho
    exact ⟨i, hi, hbelow, hstuck, Pattern.solve_of_obstacle ho⟩

/-- Solving succeeds, and reports nothing, exactly when every position can be solved. Otherwise it
fails at the lowest position that cannot, and reports this position with the two bits there. Words
are solved as the patterns without unknown bits. -/
theorem Pattern.canSolve_decides {w : Nat} (r : Pattern w) (g : Gate) (k : Pattern w) :
    (r.canSolve g k = true ↔ ∃ x, (r.solve g k).value = .ok x) ∧
      (r.canSolve g k = true → (r.solve g k).events = []) ∧
      (r.canSolve g k = false → ∃ i < w,
        (∀ j < i, g.canSolve (r.get j) (k.get j) = true) ∧
          g.canSolve (r.get i) (k.get i) = false ∧
          (r.solve g k).value = .error (.unsolvable g i) ∧
          (r.solve g k).events = [.unsolvable g i (r.get i) (k.get i)] ∧
          (Event.unsolvable g i (r.get i) (k.get i)).level = "DEBUG") ∧
      ∀ a : Word w, a.solveAnd k = (Pattern.ofWord a).solve .and k ∧
        a.solveOr k = (Pattern.ofWord a).solve .or k := by
  refine ⟨⟨?_, ?_⟩, ?_, ?_, fun a => ⟨rfl, rfl⟩⟩
  · intro h
    obtain ⟨x, hx⟩ := Pattern.solve_of_canSolve h
    exact ⟨x, by rw [hx]⟩
  · rintro ⟨x, hx⟩
    by_contra h
    obtain ⟨i, -, -, -, hi⟩ := Pattern.solve_of_not_canSolve (Bool.eq_false_of_not_eq_true h)
    rw [hi] at hx
    cases hx
  · intro h
    obtain ⟨x, hx⟩ := Pattern.solve_of_canSolve h
    rw [hx]
  · intro h
    obtain ⟨i, hi, hbelow, hstuck, hsolve⟩ := Pattern.solve_of_not_canSolve h
    exact ⟨i, hi, hbelow, hstuck, by rw [hsolve], by rw [hsolve], rfl⟩

end BitPattern
