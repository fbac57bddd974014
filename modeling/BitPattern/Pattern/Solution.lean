import BitPattern.Event
import BitPattern.Pattern

set_option autoImplicit false

namespace BitPattern

/-- The lowest position at which the gate has no solution. -/
def Pattern.obstacle? {w : Nat} (result : Pattern w) (g : Gate) (known : Pattern w) : Option Nat :=
  (List.range w).find? fun i => (g.solve? (result.get i) (known.get i)).isNone

/-- Solves `x g known = result` for `x`. -/
def Pattern.solve {w : Nat} (result : Pattern w) (g : Gate) (known : Pattern w) :
    Logged (Except Fault (Pattern w)) :=
  match result.obstacle? g known with
  | some i => do
    Logged.report (.unsolvable g i (result.get i) (known.get i))
    return .error (.unsolvable g i)
  | none => return .ok (result.zipWith (fun r k => (g.solve? r k).getD default) known)

def Pattern.canSolve {w : Nat} (result : Pattern w) (g : Gate) (known : Pattern w) : Bool :=
  (result.toList.zip known.toList).all fun (r, k) => g.canSolve r k

def Word.solveAnd {w : Nat} (result : Word w) (known : Pattern w) :
    Logged (Except Fault (Pattern w)) :=
  (Pattern.ofWord result).solve .and known

def Word.solveOr {w : Nat} (result : Word w) (known : Pattern w) :
    Logged (Except Fault (Pattern w)) :=
  (Pattern.ofWord result).solve .or known

theorem Pattern.solve_of_obstacle {w : Nat} {result : Pattern w} {g : Gate} {known : Pattern w}
    {i : Nat} (h : result.obstacle? g known = some i) :
    result.solve g known =
      ⟨.error (.unsolvable g i), [.unsolvable g i (result.get i) (known.get i)]⟩ := by
  rw [Pattern.solve, h]
  rfl

theorem Pattern.solve_of_no_obstacle {w : Nat} {result : Pattern w} {g : Gate} {known : Pattern w}
    (h : result.obstacle? g known = none) :
    result.solve g known =
      ⟨.ok (result.zipWith (fun r k => (g.solve? r k).getD default) known), []⟩ := by
  rw [Pattern.solve, h]
  rfl

theorem Pattern.obstacle?_eq_some {w : Nat} {result : Pattern w} {g : Gate} {known : Pattern w}
    {i : Nat} : result.obstacle? g known = some i ↔
      i < w ∧ g.solve? (result.get i) (known.get i) = none ∧
        ∀ j < i, g.solve? (result.get j) (known.get j) ≠ none := by
  simp only [Pattern.obstacle?, List.find?_range_eq_some, List.mem_range, Option.isNone_iff_eq_none]
  constructor
  · rintro ⟨hn, hi, hlow⟩
    exact ⟨hi, hn, fun j hj h => by simpa [h] using hlow j hj⟩
  · rintro ⟨hi, hn, hlow⟩
    refine ⟨hn, hi, fun j hj => ?_⟩
    have := hlow j hj
    cases h : g.solve? (result.get j) (known.get j) with
    | none => exact absurd h this
    | some x => rfl

theorem Pattern.obstacle?_eq_none {w : Nat} {result : Pattern w} {g : Gate} {known : Pattern w} :
    result.obstacle? g known = none ↔
      ∀ i < w, g.solve? (result.get i) (known.get i) ≠ none := by
  simp [Pattern.obstacle?]

end BitPattern
