import BitPattern.Proofs.Words

/-!
Gates one bit at a time: which definite bits an operation on three-valued bits can reach, and what
a backwards solution stands for. Half of the gates are negations of the other half, and a fact
about a gate passes to its negation.
-/

set_option autoImplicit false

namespace BitPattern

def Gate.negated : Gate → Gate
  | .and => .nand
  | .nand => .and
  | .nor => .or
  | .or => .nor
  | .xnor => .xor
  | .xor => .xnor

theorem Gate.eval_negated (g : Gate) (a b : Bool) : g.negated.eval a b = !g.eval a b := by
  cases g <;> simp [Gate.negated, Gate.eval]

theorem Gate.apply_negated (g : Gate) (s t : Trit) : g.negated.apply s t = (g.apply s t).not := by
  cases g <;> simp [Gate.negated, Gate.apply, Trit.nand, Trit.nor, Trit.xnor]

theorem Gate.solve?_negated (g : Gate) (r k : Trit) :
    g.negated.solve? r k = g.solve? r.not k := by
  cases g <;> simp [Gate.negated, Gate.solve?]

/-- What holds of AND, OR and XOR and passes to negations holds of every gate. -/
theorem Gate.negated_induction {P : Gate → Prop} (hand : P .and) (hor : P .or) (hxor : P .xor)
    (hneg : ∀ g, P g → P g.negated) (g : Gate) : P g := by
  cases g with
  | and => exact hand
  | nand => exact hneg .and hand
  | nor => exact hneg .or hor
  | or => exact hor
  | xnor => exact hneg .xor hxor
  | xor => exact hxor

/-- Some bits allowed on the two sides give `c`. -/
def Gate.Reaches (g : Gate) (s t : Trit) (c : Bool) : Prop :=
  ∃ a b, s.Allows a ∧ t.Allows b ∧ g.eval a b = c

instance (g : Gate) (s t : Trit) (c : Bool) : Decidable (g.Reaches s t c) :=
  inferInstanceAs (Decidable (∃ a b, s.Allows a ∧ t.Allows b ∧ g.eval a b = c))

/-- The operation on three-valued bits allows no bit that cannot be reached. -/
def Gate.Exact (g : Gate) (s t : Trit) : Prop := ∀ c, (g.apply s t).Allows c → g.Reaches s t c

instance (g : Gate) (s t : Trit) : Decidable (g.Exact s t) :=
  inferInstanceAs (Decidable (∀ c, (g.apply s t).Allows c → g.Reaches s t c))

theorem Gate.allows_apply (g : Gate) {s t : Trit} {a b : Bool} (ha : s.Allows a)
    (hb : t.Allows b) : (g.apply s t).Allows (g.eval a b) := by
  induction g using Gate.negated_induction with
  | hand => revert ha hb; cases s <;> cases t <;> cases a <;> cases b <;> decide
  | hor => revert ha hb; cases s <;> cases t <;> cases a <;> cases b <;> decide
  | hxor => revert ha hb; cases s <;> cases t <;> cases a <;> cases b <;> decide
  | hneg g ih =>
    rw [Gate.apply_negated, Gate.eval_negated, Trit.allows_not, Bool.not_not]
    exact ih

theorem Gate.reaches_negated {g : Gate} {s t : Trit} {c : Bool} :
    g.negated.Reaches s t c ↔ g.Reaches s t (!c) := by
  simp only [Gate.Reaches, Gate.eval_negated, Bool.not_eq_eq_eq_not]

theorem Gate.exact_negated {g : Gate} {s t : Trit} : g.negated.Exact s t ↔ g.Exact s t := by
  simp only [Gate.Exact, Gate.apply_negated, Gate.reaches_negated, Trit.allows_not]
  constructor
  · intro h c hc
    have := h (!c) (by rwa [Bool.not_not])
    rwa [Bool.not_not] at this
  · intro h c hc
    exact h (!c) hc

theorem Gate.exact_and {s t : Trit} :
    Gate.and.Exact s t ↔ ¬(s = .zero ∧ t = .unknown) ∧ ¬(s = .unknown ∧ t = .zero) := by
  cases s <;> cases t <;> decide

theorem Gate.exact_or (s t : Trit) : Gate.or.Exact s t := by cases s <;> cases t <;> decide

theorem Gate.exact_xor (s t : Trit) : Gate.xor.Exact s t := by cases s <;> cases t <;> decide

/-- The bit that settles a gate whatever the other side holds. -/
def Gate.absorbing? : Gate → Option Bool
  | .and | .nand => some false
  | .nor | .or => some true
  | .xnor | .xor => none

/-- No bit guarantees a known result, or an unknown result stands against a known operand that
settles the gate. -/
def Gate.Unsolvable (g : Gate) (r k : Trit) : Prop :=
  (∃ v, r.value? = some v ∧ ¬∃ x, ∀ b, k.Allows b → g.eval x b = v) ∨
    (r = .unknown ∧ ∃ v, g.absorbing? = some v ∧ k = .ofBool v)

instance (g : Gate) (r k : Trit) : Decidable (g.Unsolvable r k) :=
  inferInstanceAs (Decidable
    ((∃ v, r.value? = some v ∧ ¬∃ x, ∀ b, k.Allows b → g.eval x b = v) ∨
      (r = .unknown ∧ ∃ v, g.absorbing? = some v ∧ k = .ofBool v)))

theorem Gate.unsolvable_negated {g : Gate} {r k : Trit} :
    g.negated.Unsolvable r k ↔ g.Unsolvable r.not k := by
  have habs : g.negated.absorbing? = g.absorbing? := by cases g <;> rfl
  simp only [Gate.Unsolvable, Gate.eval_negated, habs]
  cases r <;> simp [Trit.not, Trit.value?]

theorem Gate.solve?_eq_none {g : Gate} {r k : Trit} :
    g.solve? r k = none ↔ g.Unsolvable r k := by
  induction g using Gate.negated_induction generalizing r with
  | hand => cases r <;> cases k <;> decide
  | hor => cases r <;> cases k <;> decide
  | hxor => cases r <;> cases k <;> decide
  | hneg g ih => rw [Gate.solve?_negated, Gate.unsolvable_negated, ih]

/-- A solution allows exactly the bits that meet the result against every allowed operand. -/
theorem Gate.allows_of_solve? {g : Gate} {r k x : Trit} (h : g.solve? r k = some x) (a : Bool) :
    x.Allows a ↔ ∀ b, k.Allows b → r.Allows (g.eval a b) := by
  induction g using Gate.negated_induction generalizing r with
  | hand => cases r <;> cases k <;> cases h <;> cases a <;> decide
  | hor => cases r <;> cases k <;> cases h <;> cases a <;> decide
  | hxor => cases r <;> cases k <;> cases h <;> cases a <;> decide
  | hneg g ih =>
    rw [Gate.solve?_negated] at h
    simp only [ih h, Gate.eval_negated, Trit.allows_not]

end BitPattern
