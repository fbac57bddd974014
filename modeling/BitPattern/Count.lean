import BitPattern.Event
import BitPattern.Power

set_option autoImplicit false

namespace BitPattern

def countLimit : Nat := twoPow 128 - 1

def exponentLimit : Nat := twoPow 32 - 1

def addCount (m n : Nat) : Nat := min (m + n) countLimit

def multiply? (base : Nat) : (count n : Nat) → Option Nat
  | count, 0 => some count
  | count, n + 1 =>
    if count * base ≤ countLimit then multiply? base (count * base) n else none

def power? (base exponent : Nat) : Option Nat :=
  if exponent ≤ exponentLimit then multiply? base 1 exponent else none

/-- Drops the `n` lowest binary digits of `k`. A count has 128 digits, and dropping all of them is
refused. -/
def dropDigits? (k n : Nat) : Option Nat :=
  if k ≤ countLimit ∧ 128 ≤ n then none else some (k >>> n)

/-- The number of ways to give each slot one of `base` values: `base ^ slots`, cut off at
`countLimit`. -/
def arrangements (base slots : Nat) : Logged Nat :=
  match base, slots with
  | _, 0 => return 1
  | 0, _ => return 0
  | 1, _ => return 1
  | base, slots =>
    match power? base slots with
    | some count => return count
    | none => do
      Logged.report (.countSaturated base slots)
      return countLimit

theorem countLimit_add_one : countLimit + 1 = twoPow 128 := by decide

theorem lt_twoPow_of_le_countLimit {k n : Nat} (hk : k ≤ countLimit) (hn : 128 ≤ n) :
    k < twoPow n := by
  have hlimit := countLimit_add_one
  have hle : twoPow 128 ≤ twoPow n := Nat.pow_le_pow_right Nat.two_pos hn
  omega

theorem dropDigits?_all_eq_zero {k n : Nat} :
    (dropDigits? k n).all (· == 0) = true ↔ k < twoPow n := by
  rw [dropDigits?]
  by_cases h : k ≤ countLimit ∧ 128 ≤ n
  · -- nothing is left of a count then
    simp [h, lt_twoPow_of_le_countLimit h.1 h.2]
  · rw [if_neg h, Option.all_some, beq_iff_eq, shiftRight_eq_zero_iff]

end BitPattern
