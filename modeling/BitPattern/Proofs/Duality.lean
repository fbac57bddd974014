import BitPattern.Proofs.Solution

/-!
De Morgan duality. Solving a gate backwards is solving its dual for the negated bits, position by
position, with the same positions left unsolved. Applied forwards, OR and AND are dual only where no
set bit meets an unknown one, since AND leaves the negated bits unknown there.
-/

set_option autoImplicit false

namespace BitPattern

/-- The gate that does to negated bits what this one does to the bits. -/
def Gate.dual : Gate → Gate
  | .and => .or
  | .nand => .nor
  | .nor => .nand
  | .or => .and
  | .xnor => .xor
  | .xor => .xnor

theorem Gate.dual_negated (g : Gate) : g.negated.dual = g.dual.negated := by cases g <;> rfl

theorem Trit.not_injective : Function.Injective Trit.not := by
  intro s t h
  rw [← s.not_not, h, t.not_not]

theorem Gate.solve?_dual (g : Gate) (r k : Trit) :
    g.dual.solve? r.not k.not = (g.solve? r k).map Trit.not := by
  induction g using Gate.negated_induction generalizing r with
  | hand => cases r <;> cases k <;> rfl
  | hor => cases r <;> cases k <;> rfl
  | hxor => cases r <;> cases k <;> rfl
  | hneg g ih => rw [Gate.dual_negated, Gate.solve?_negated, Gate.solve?_negated, ih]

variable {w : Nat} {r k : Pattern w} {g : Gate}

theorem Pattern.solve?_get_dual {i : Nat} (hi : i < w) :
    g.dual.solve? ((~~~r).get i) ((~~~k).get i) =
      (g.solve? (r.get i) (k.get i)).map Trit.not := by
  rw [Pattern.get_not r hi, Pattern.get_not k hi, Gate.solve?_dual]

theorem Pattern.value_solve_dual_eq_ok {x : Pattern w} :
    ((~~~r).solve g.dual (~~~k)).value = .ok (~~~x) ↔ (r.solve g k).value = .ok x := by
  rw [Pattern.value_solve_eq_ok, Pattern.value_solve_eq_ok]
  refine forall₂_congr fun i hi => ?_
  rw [Pattern.solve?_get_dual hi, Pattern.get_not x hi]
  exact (Option.map_injective Trit.not_injective).eq_iff (b := some (x.get i))

theorem Pattern.value_solve_dual_eq_unsolvable {i : Nat} :
    ((~~~r).solve g.dual (~~~k)).value = .error (.unsolvable g.dual i) ↔
      (r.solve g k).value = .error (.unsolvable g i) := by
  have hset : {j | j < w ∧ g.dual.Unsolvable ((~~~r).get j) ((~~~k).get j)} =
      {j | j < w ∧ g.Unsolvable (r.get j) (k.get j)} := by
    ext j
    refine and_congr_right fun hj => ?_
    rw [← Gate.solve?_eq_none, ← Gate.solve?_eq_none, Pattern.solve?_get_dual hj,
      Option.map_eq_none_iff]
  rw [Pattern.value_solve_eq_unsolvable, Pattern.value_solve_eq_unsolvable, hset]

/-- AND leaves a clear bit unknown against an unknown one, where OR keeps a set one. -/
theorem Trit.or_eq_not_and_not {s t : Trit} : s.or t = (s.not.and t.not).not ↔
    ¬(s = .one ∧ t = .unknown) ∧ ¬(s = .unknown ∧ t = .one) := by
  cases s <;> cases t <;> decide

theorem Row.eq_iff_get {α : Type} [Inhabited α] {a b : Row α w} :
    a = b ↔ ∀ i < w, a.get i = b.get i :=
  ⟨fun h _ _ => by rw [h], Row.ext_get⟩

theorem Pattern.not_not (p : Pattern w) : ~~~(~~~p) = p := by
  apply Row.ext_get
  intro i hi
  rw [Pattern.get_not _ hi, Pattern.get_not _ hi, Trit.not_not]

theorem Pattern.not_apply_or (p q : Pattern w) : ~~~(p.apply .or q) = p.apply .nor q := by
  apply Row.ext_get
  intro i hi
  rw [Pattern.get_not _ hi, Pattern.get_apply _ _ _ hi, Pattern.get_apply _ _ _ hi]
  rfl

theorem Pattern.apply_or_eq_iff {p q : Pattern w} :
    p.apply .or q = ~~~((~~~p).apply .and (~~~q)) ↔
      ∀ i < w, ¬(p.get i = .one ∧ q.get i = .unknown) ∧
        ¬(p.get i = .unknown ∧ q.get i = .one) := by
  rw [Row.eq_iff_get]
  refine forall₂_congr fun i hi => ?_
  rw [Pattern.get_apply _ _ _ hi, Pattern.get_not _ hi, Pattern.get_apply _ _ _ hi,
    Pattern.get_not p hi, Pattern.get_not q hi]
  exact Trit.or_eq_not_and_not

theorem Pattern.apply_nor_eq_iff {p q : Pattern w} :
    p.apply .nor q = (~~~p).apply .and (~~~q) ↔
      p.apply .or q = ~~~((~~~p).apply .and (~~~q)) := by
  rw [← Pattern.not_apply_or]
  constructor
  · intro h
    rw [← h, Pattern.not_not]
  · intro h
    rw [h, Pattern.not_not]

/-- A gate is solved as its dual is for the negated patterns: the solutions are the negations of
each other, and a failure is at the same position. OR is the dual of AND forwards exactly where no
set bit meets an unknown one, and NOR is AND of the negated patterns in the same case. -/
theorem Pattern.de_morgan (p q : Pattern w) :
    (∀ g, (∀ x, (p.solve g q).value = .ok x ↔
          ((~~~p).solve g.dual (~~~q)).value = .ok (~~~x)) ∧
        ∀ f, (p.solve g q).value = .error f ↔ ∃ i, f = .unsolvable g i ∧
          ((~~~p).solve g.dual (~~~q)).value = .error (.unsolvable g.dual i)) ∧
      (p.apply .or q = ~~~((~~~p).apply .and (~~~q)) ↔
        ∀ i < w, ¬(p.get i = .one ∧ q.get i = .unknown) ∧
          ¬(p.get i = .unknown ∧ q.get i = .one)) ∧
      (p.apply .nor q = (~~~p).apply .and (~~~q) ↔
        ∀ i < w, ¬(p.get i = .one ∧ q.get i = .unknown) ∧
          ¬(p.get i = .unknown ∧ q.get i = .one)) := by
  refine ⟨fun g => ⟨fun x => Pattern.value_solve_dual_eq_ok.symm, fun f => ?_⟩,
    Pattern.apply_or_eq_iff, Pattern.apply_nor_eq_iff.trans Pattern.apply_or_eq_iff⟩
  simp only [Pattern.value_solve_dual_eq_unsolvable]
  simp only [Pattern.value_solve_eq_unsolvable]
  exact Pattern.value_solve_eq_error

end BitPattern
