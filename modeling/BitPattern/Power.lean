set_option autoImplicit false

namespace BitPattern

/-- `2 ^ n`, by name: which instance the operator stands for depends on what is imported. -/
def twoPow (n : Nat) : Nat := Nat.pow 2 n

theorem twoPow_zero : twoPow 0 = 1 := rfl

theorem twoPow_succ (n : Nat) : twoPow (n + 1) = 2 * twoPow n :=
  Nat.mul_comm (Nat.pow 2 n) 2

/-- A number has no binary digit from place `k` on exactly when it is below `2 ^ k`. -/
theorem shiftRight_eq_zero_iff {n k : Nat} : n >>> k = 0 ↔ n < twoPow k := by
  have hpos : 0 < twoPow k := Nat.two_pow_pos k
  have hdiv : n >>> k = n / twoPow k := Nat.shiftRight_eq_div_pow n k
  rw [hdiv, Nat.div_eq_zero_iff]
  omega

end BitPattern
