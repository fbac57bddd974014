import BitPattern.Proofs.Solution

/-!
What solving finds again. For a fixed result the solutions and the operands they were found for
bound each other, so solving back widens an operand at most, and solving once more changes nothing.
From the result of an operation on two patterns, solving finds the first one again, or a wider one.
-/

set_option autoImplicit false

namespace BitPattern

/-- Every position is the same or left open. -/
def Pattern.Widens {w : Nat} (p q : Pattern w) : Prop :=
  ∀ i < w, p.get i = q.get i ∨ p.get i = .unknown

theorem Trit.forall_allows_iff {s t : Trit} :
    (∀ b, t.Allows b → s.Allows b) ↔ s = t ∨ s = .unknown := by
  cases s <;> cases t <;> decide

theorem Trit.eq_of_allows_iff {s t : Trit} (h : ∀ b, s.Allows b ↔ t.Allows b) : s = t := by
  revert h
  cases s <;> cases t <;> decide

/-- A pattern is wider exactly when it stands for more words. -/
theorem Pattern.widens_iff {w : Nat} {p q : Pattern w} : p.Widens q ↔ q.words ⊆ p.words := by
  have hwords : q.words ⊆ p.words ↔ ∀ a ∈ q.words, ∀ i < w, (p.get i).Allows (a.get i) := Iff.rfl
  rw [hwords, Pattern.forall_words_iff]
  exact forall₂_congr fun i _ => Trit.forall_allows_iff.symm

theorem Gate.eval_comm (g : Gate) (a b : Bool) : g.eval a b = g.eval b a := by
  cases g <;> cases a <;> cases b <;> rfl

theorem Gate.exists_solve?_solution {g : Gate} {r k x : Trit} (h : g.solve? r k = some x) :
    ∃ y, g.solve? r x = some y := by
  induction g using Gate.negated_induction generalizing r with
  | hand => cases r <;> cases k <;> cases h <;> exact ⟨_, rfl⟩
  | hor => cases r <;> cases k <;> cases h <;> exact ⟨_, rfl⟩
  | hxor => cases r <;> cases k <;> cases h <;> exact ⟨_, rfl⟩
  | hneg g ih =>
    rw [Gate.solve?_negated] at h ⊢
    exact ih h

theorem Gate.solve?_solution {g : Gate} {r k x : Trit} (h : g.solve? r k = some x) :
    ∃ y, g.solve? r x = some y ∧ (y = k ∨ y = .unknown) ∧ g.solve? r y = some x := by
  -- the tables only say that there are solutions; what they allow follows from the Galois
  -- connection between the bits of the two operands
  obtain ⟨y, hy⟩ := Gate.exists_solve?_solution h
  obtain ⟨z, hz⟩ := Gate.exists_solve?_solution hy
  have hx := Gate.allows_of_solve? h
  have hy' := Gate.allows_of_solve? hy
  have hz' := Gate.allows_of_solve? hz
  have hky : ∀ b, k.Allows b → y.Allows b := by
    intro b hb
    rw [hy']
    intro a ha
    rw [Gate.eval_comm]
    exact (hx a).1 ha b hb
  have hzx : z = x := by
    apply Trit.eq_of_allows_iff
    intro a
    constructor
    · intro ha
      rw [hx]
      intro b hb
      exact (hz' a).1 ha b (hky b hb)
    · intro ha
      rw [hz']
      intro b hb
      rw [Gate.eval_comm]
      exact (hy' b).1 hb a ha
  exact ⟨y, hy, Trit.forall_allows_iff.1 hky, hzx ▸ hz⟩

/-- Solving back never fails and loses nothing of the operand, and a third solution is the first
one. -/
theorem Pattern.solve_solution {w : Nat} {r : Pattern w} {g : Gate} {k x : Pattern w}
    (h : (r.solve g k).value = .ok x) :
    ∃ y, (r.solve g x).value = .ok y ∧ y.Widens k ∧ k.words ⊆ y.words ∧
      (r.solve g y).value = .ok x := by
  simp only [Pattern.value_solve_eq_ok] at h ⊢
  obtain ⟨y, hy⟩ := Row.exists_of_forall fun i hi => Gate.solve?_solution (h i hi)
  have hwidens : Pattern.Widens y k := fun i hi => (hy i hi).2.1
  exact ⟨y, fun i hi => (hy i hi).1, hwidens, Pattern.widens_iff.1 hwidens,
    fun i hi => (hy i hi).2.2⟩

theorem Pattern.solve_solution_and :
    let r : Pattern 5 := ⟨[.zero, .zero, .zero, .one, .unknown], rfl⟩
    let k : Pattern 5 := ⟨[.zero, .unknown, .one, .one, .one], rfl⟩
    let x : Pattern 5 := ⟨[.unknown, .zero, .zero, .one, .unknown], rfl⟩
    (r.solve .and k).value = .ok x ∧
      ∃ y, (r.solve .and x).value = .ok y ∧ y.Widens k ∧ k.words ⊆ y.words ∧
        (r.solve .and y).value = .ok x :=
  ⟨rfl, Pattern.solve_solution rfl⟩

/-- What solving finds for the first operand from the result of a gate. -/
def Gate.recover? (g : Gate) (s t : Trit) : Option Trit := g.solve? (g.apply s t) t

theorem Gate.recover?_negated (g : Gate) (s t : Trit) :
    g.negated.recover? s t = g.recover? s t := by
  rw [Gate.recover?, Gate.apply_negated, Gate.solve?_negated, Trit.not_not, Gate.recover?]

theorem Gate.recover?_nand (s t : Trit) : Gate.nand.recover? s t = Gate.and.recover? s t :=
  Gate.recover?_negated .and s t

theorem Gate.recover?_nor (s t : Trit) : Gate.nor.recover? s t = Gate.or.recover? s t :=
  Gate.recover?_negated .or s t

theorem Gate.recover?_xnor (s t : Trit) : Gate.xnor.recover? s t = Gate.xor.recover? s t :=
  Gate.recover?_negated .xor s t

theorem Gate.recover?_and_eq_none {s t : Trit} :
    Gate.and.recover? s t = none ↔ s = .unknown ∧ t = .zero := by
  cases s <;> cases t <;> decide

theorem Gate.recover?_or_ne_none (s t : Trit) : Gate.or.recover? s t ≠ none := by
  cases s <;> cases t <;> decide

theorem Gate.recover?_xor (s t : Trit) :
    Gate.xor.recover? s t = some (if t = .unknown then .unknown else s) := by
  cases s <;> cases t <;> rfl

theorem Gate.recover?_widens {g : Gate} {s t x : Trit} (h : g.recover? s t = some x) :
    x = s ∨ x = .unknown := by
  rw [← Trit.forall_allows_iff]
  intro a ha
  rw [Gate.allows_of_solve? h]
  intro b hb
  exact g.allows_apply ha hb

theorem Pattern.solve?_get_apply {w : Nat} {p q : Pattern w} {g : Gate} {i : Nat} (hi : i < w) :
    g.solve? ((p.apply g q).get i) (q.get i) = g.recover? (p.get i) (q.get i) := by
  rw [Pattern.get_apply g p q hi, Gate.recover?]

theorem Pattern.value_solve_apply_eq_ok {w : Nat} {p q x : Pattern w} {g : Gate} :
    ((p.apply g q).solve g q).value = .ok x ↔
      ∀ i < w, g.recover? (p.get i) (q.get i) = some (x.get i) := by
  rw [Pattern.value_solve_eq_ok]
  exact forall₂_congr fun i hi => by rw [Pattern.solve?_get_apply hi]

theorem Pattern.exists_solve_apply_iff {w : Nat} {p q : Pattern w} {g : Gate} :
    (∃ x, ((p.apply g q).solve g q).value = .ok x) ↔
      ∀ i < w, g.recover? (p.get i) (q.get i) ≠ none := by
  rw [Pattern.exists_solve_iff]
  exact forall₂_congr fun i hi => by rw [Pattern.solve?_get_apply hi]

theorem Pattern.value_solve_apply_eq_unsolvable {w : Nat} {p q : Pattern w} {g : Gate}
    {i : Nat} : ((p.apply g q).solve g q).value = .error (.unsolvable g i) ↔
      IsLeast {j | j < w ∧ g.recover? (p.get j) (q.get j) = none} i := by
  have hset : {j | j < w ∧ g.Unsolvable ((p.apply g q).get j) (q.get j)} =
      {j | j < w ∧ g.recover? (p.get j) (q.get j) = none} := by
    ext j
    refine and_congr_right fun hj => ?_
    rw [← Gate.solve?_eq_none, Pattern.solve?_get_apply hj]
  rw [Pattern.value_solve_eq_unsolvable, hset]

/-- From the result of a gate, solving finds the first operand again, open where the second one
settles or hides it. Only AND and NAND can have nothing to find, at the lowest position where an
unknown bit met a clear one. -/
theorem Pattern.solve_apply {w : Nat} (p q : Pattern w) :
    (∀ g, g = .or ∨ g = .nor ∨ g = .xor ∨ g = .xnor →
        ∃ x, ((p.apply g q).solve g q).value = .ok x) ∧
      (∀ g, g = .and ∨ g = .nand →
        ((∃ x, ((p.apply g q).solve g q).value = .ok x) ↔
            ∀ i < w, ¬(p.get i = .unknown ∧ q.get i = .zero)) ∧
          ∀ i, ((p.apply g q).solve g q).value = .error (.unsolvable g i) ↔
            IsLeast {j | j < w ∧ p.get j = .unknown ∧ q.get j = .zero} i) ∧
      (∀ g x, ((p.apply g q).solve g q).value = .ok x → x.Widens p ∧ p.words ⊆ x.words) ∧
      (∀ g x, g = .xor ∨ g = .xnor → ((p.apply g q).solve g q).value = .ok x →
        ∀ i < w, x.get i = if q.get i = .unknown then .unknown else p.get i) := by
  refine ⟨?_, ?_, ?_, ?_⟩
  · intro g hg
    rw [Pattern.exists_solve_apply_iff]
    intro i _
    rcases hg with rfl | rfl | rfl | rfl
    · exact Gate.recover?_or_ne_none _ _
    · rw [Gate.recover?_nor]
      exact Gate.recover?_or_ne_none _ _
    · simp [Gate.recover?_xor]
    · simp [Gate.recover?_xnor, Gate.recover?_xor]
  · intro g hg
    have hnone : ∀ s t, g.recover? s t = none ↔ s = .unknown ∧ t = .zero := by
      intro s t
      rcases hg with rfl | rfl
      · exact Gate.recover?_and_eq_none
      · rw [Gate.recover?_nand]
        exact Gate.recover?_and_eq_none
    constructor
    · simp only [Pattern.exists_solve_apply_iff, ne_eq, hnone]
    · simp only [Pattern.value_solve_apply_eq_unsolvable, hnone, implies_true]
  · intro g x hx
    rw [Pattern.value_solve_apply_eq_ok] at hx
    have hwidens : Pattern.Widens x p := fun i hi => Gate.recover?_widens (hx i hi)
    exact ⟨hwidens, Pattern.widens_iff.1 hwidens⟩
  · intro g x hg hx i hi
    rw [Pattern.value_solve_apply_eq_ok] at hx
    have hxor : g.recover? (p.get i) (q.get i) = Gate.xor.recover? (p.get i) (q.get i) := by
      rcases hg with rfl | rfl
      · rfl
      · exact Gate.recover?_xnor _ _
    rw [hx i hi, Gate.recover?_xor] at hxor
    exact Option.some.inj hxor

end BitPattern
