import BitPattern.Power

set_option autoImplicit false

namespace BitPattern

def lengthLimit : Nat := twoPow 64 - 1

/-- The largest length of a buffer of bytes. There is taken to be memory for all up to it. -/
def bufferLimit : Nat := twoPow 63 - 1

/-- How a call ends. An overflow stops the program: it has asked for a longer buffer than there can
be, and there is no answer. -/
inductive Ending (α : Type) where
  | answer (a : α)
  | overflow
  deriving DecidableEq, Repr

def within? (limit n : Nat) : Option Nat := if n ≤ limit then some n else none

def add? (limit m n : Nat) : Option Nat := within? limit (m + n)

def subtract? (m n : Nat) : Option Nat := if n ≤ m then some (m - n) else none

theorem within?_eq_some {limit n m : Nat} : within? limit n = some m ↔ n ≤ limit ∧ n = m := by
  unfold within?
  by_cases h : n ≤ limit <;> simp [h]

theorem subtract?_eq_some {m n d : Nat} : subtract? m n = some d ↔ d + n = m := by
  unfold subtract?
  by_cases h : n ≤ m
  · rw [if_pos h, Option.some_inj]
    omega
  · rw [if_neg h]
    exact ⟨nofun, fun _ => by omega⟩

theorem within?_bind_within? {low high : Nat} (h : low ≤ high) (n : Nat) :
    (within? high n).bind (within? low) = within? low n := by
  unfold within?
  by_cases hn : n ≤ high
  · rw [if_pos hn, Option.bind_some]
  · rw [if_neg hn, if_neg (by omega), Option.bind_none]

end BitPattern
