import BitPattern.Proofs.Regrouping

set_option autoImplicit false

namespace BitPattern

theorem Pattern.getD_joinBytes_toBytes {w : Nat} (p : Pattern w) (n : Nat) :
    (joinBytes p.toBytes).getD n default = p.get n := by
  obtain ⟨j, i, hi, rfl⟩ := exists_place n
  rw [getD_joinBytes _ _ hi, p.get_getD_toBytes j hi]

theorem Pattern.get_resize {w n i : Nat} (p : Pattern w) (h : i < n) :
    (p.resize n).get i = p.get i := by
  rw [Pattern.resize, Row.get_ofList, if_pos h, p.getD_joinBytes_toBytes]

theorem Pattern.resize_resize {w n m : Nat} (p : Pattern w) (h : min w m ≤ n) :
    (p.resize n).resize m = p.resize m := by
  apply Row.ext_get
  intro i hi
  rw [Pattern.get_resize _ hi, Pattern.get_resize _ hi]
  by_cases hn : i < n
  · exact p.get_resize hn
  · rw [Row.get_of_le _ (Nat.le_of_not_lt hn), p.get_of_le (by omega)]

theorem Pattern.resize_resize_eq_self_iff {w n : Nat} {p : Pattern w} :
    (p.resize n).resize w = p ↔ ∀ i, n ≤ i → i < w → p.get i = .zero := by
  constructor
  · intro h i hn hw
    rw [← h, Pattern.get_resize _ hw, Row.get_of_le _ hn]
    rfl
  · intro h
    apply Row.ext_get
    intro i hi
    rw [Pattern.get_resize _ hi]
    by_cases hn : i < n
    · exact p.get_resize hn
    · rw [Row.get_of_le _ (Nat.le_of_not_lt hn), h i (Nat.le_of_not_lt hn) hi]
      rfl

/-- Taking a pattern to another width cuts its list of bits off or fills it up with clear bits. So a
width in the middle does not show unless it is below both the others, and there and back again is
the pattern itself exactly when only clear bits are cut off. -/
theorem Pattern.resize_exact {w : Nat} (p : Pattern w) (n m : Nat) :
    (p.resize n = .ofList p.toList ∧ ∀ i < n, (p.resize n).get i = p.get i) ∧
      (min w m ≤ n → (p.resize n).resize m = p.resize m) ∧
      ((p.resize n).resize w = p ↔ ∀ i, n ≤ i → i < w → p.get i = .zero) := by
  refine ⟨⟨?_, fun i hi => p.get_resize hi⟩, p.resize_resize, Pattern.resize_resize_eq_self_iff⟩
  apply Row.ext_get
  intro i hi
  rw [p.get_resize hi, Row.get_ofList, if_pos hi]
  rfl

end BitPattern
