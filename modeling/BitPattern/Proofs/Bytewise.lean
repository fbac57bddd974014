import BitPattern.Proofs.Regrouping
import BitPattern.Proofs.Solution
import Mathlib.Data.Set.List

/-!
Working byte by byte against working on the whole pattern. Gates agree at every width. Solving
agrees where the clear bits that fill up the last byte have a solution of their own, which they
have for every gate but NAND.
-/

set_option autoImplicit false

namespace BitPattern

def Pattern.solveBytes {w : Nat} (r : Pattern w) (g : Gate) (k : Pattern w) :
    List (Except Fault (Pattern 8)) :=
  List.zipWith (fun r k => (r.solve g k).value) r.toBytes k.toBytes

theorem Pattern.getElem?_zipWith_toBytes {α : Type} {w j : Nat} (f : Pattern 8 → Pattern 8 → α)
    (p q : Pattern w) (hj : j < octetCount w) : (List.zipWith f p.toBytes q.toBytes)[j]? =
      some (f (p.toBytes.getD j default) (q.toBytes.getD j default)) := by
  have hp : j < p.toBytes.length := by rwa [p.length_toBytes]
  have hq : j < q.toBytes.length := by rwa [q.length_toBytes]
  rw [List.getElem?_zipWith, List.getElem?_eq_getElem hp, List.getElem?_eq_getElem hq,
    List.getD_eq_getElem _ _ hp, List.getD_eq_getElem _ _ hq]

theorem Pattern.ofBytes_zipWith_apply {w : Nat} (g : Gate) (p q : Pattern w) :
    Pattern.ofBytes (List.zipWith (Pattern.apply g) p.toBytes q.toBytes) = .ok (p.apply g q) := by
  rw [Pattern.ofBytes_eq_ok]
  refine ⟨by simp, fun j i hi hw => ?_⟩
  have hj := lt_octetCount hw
  rw [List.getD_eq_getElem?_getD, Pattern.getElem?_zipWith_toBytes _ _ _ hj, Option.getD_some,
    Pattern.get_apply g _ _ hi, p.get_getD_toBytes j hi, q.get_getD_toBytes j hi,
    Pattern.get_apply g p q hw]

@[simp] theorem Pattern.length_solveBytes {w : Nat} (r : Pattern w) (g : Gate) (k : Pattern w) :
    (r.solveBytes g k).length = octetCount w := by
  simp [Pattern.solveBytes]

theorem Pattern.getElem?_solveBytes {w j : Nat} (r : Pattern w) (g : Gate) (k : Pattern w)
    (hj : j < octetCount w) : (r.solveBytes g k)[j]? =
      some ((r.toBytes.getD j default).solve g (k.toBytes.getD j default)).value :=
  Pattern.getElem?_zipWith_toBytes _ r k hj

theorem Pattern.getElem?_solveBytes_eq_ok {w j : Nat} {r k : Pattern w} {g : Gate} {y : Pattern 8}
    (hj : j < octetCount w) : (r.solveBytes g k)[j]? = some (.ok y) ↔
      ∀ i < 8, g.solve? (r.get (8 * j + i)) (k.get (8 * j + i)) = some (y.get i) := by
  rw [Pattern.getElem?_solveBytes r g k hj, Option.some_inj, Pattern.value_solve_eq_ok]
  refine forall₂_congr fun i hi => ?_
  rw [r.get_getD_toBytes j hi, k.get_getD_toBytes j hi]

theorem Pattern.exists_getElem?_solveBytes_iff {w j : Nat} {r k : Pattern w} {g : Gate}
    (hj : j < octetCount w) : (∃ y, (r.solveBytes g k)[j]? = some (.ok y)) ↔
      ∀ i < 8, ¬g.Unsolvable (r.get (8 * j + i)) (k.get (8 * j + i)) := by
  simp only [Pattern.getElem?_solveBytes r g k hj, Option.some_inj, Pattern.exists_solve_iff,
    ne_eq, Gate.solve?_eq_none]
  refine forall₂_congr fun i hi => ?_
  rw [r.get_getD_toBytes j hi, k.get_getD_toBytes j hi]

theorem Pattern.getElem?_solveBytes_eq_unsolvable {w j i : Nat} {r k : Pattern w} {g : Gate}
    (hj : j < octetCount w) : (r.solveBytes g k)[j]? = some (.error (.unsolvable g i)) ↔
      IsLeast {m | m < 8 ∧ g.Unsolvable (r.get (8 * j + m)) (k.get (8 * j + m))} i := by
  have hset : {m | m < 8 ∧ g.Unsolvable ((r.toBytes.getD j default).get m)
        ((k.toBytes.getD j default).get m)} =
      {m | m < 8 ∧ g.Unsolvable (r.get (8 * j + m)) (k.get (8 * j + m))} := by
    ext m
    refine and_congr_right fun hm => ?_
    rw [r.get_getD_toBytes j hm, k.get_getD_toBytes j hm]
  rw [Pattern.getElem?_solveBytes r g k hj, Option.some_inj, Pattern.value_solve_eq_unsolvable,
    hset]

theorem Pattern.exists_error_getElem?_solveBytes {w j : Nat} {r k : Pattern w} {g : Gate}
    (hj : j < octetCount w) (h : ¬∃ y, (r.solveBytes g k)[j]? = some (.ok y)) :
    ∃ i, (r.solveBytes g k)[j]? = some (.error (.unsolvable g i)) := by
  rw [Pattern.getElem?_solveBytes r g k hj] at h ⊢
  cases hv : ((r.toBytes.getD j default).solve g (k.toBytes.getD j default)).value with
  | ok y =>
    rw [hv] at h
    exact absurd ⟨y, rfl⟩ h
  | error f =>
    obtain ⟨i, rfl, -⟩ := Pattern.value_solve_eq_error.1 hv
    exact ⟨i, rfl⟩

/-- A clear result from a clear operand has a solution, except for NAND. -/
theorem Gate.unsolvable_zero_zero {g : Gate} : g.Unsolvable .zero .zero ↔ g = .nand := by
  rw [← Gate.solve?_eq_none]
  cases g <;> decide

theorem Pattern.lt_of_unsolvable {w j i : Nat} {r k : Pattern w} {g : Gate}
    (hg : w % 8 = 0 ∨ g ≠ .nand) (hj : j < octetCount w) (hi : i < 8)
    (hu : g.Unsolvable (r.get (8 * j + i)) (k.get (8 * j + i))) : 8 * j + i < w := by
  by_contra hle
  have hr : r.get (8 * j + i) = .zero := r.get_of_le (by omega)
  have hk : k.get (8 * j + i) = .zero := k.get_of_le (by omega)
  rw [hr, hk, Gate.unsolvable_zero_zero] at hu
  unfold octetCount at hj
  have hw : w % 8 ≠ 0 := by omega
  exact hg.elim hw fun h => h hu

theorem Pattern.exists_solve_iff_bytes {w : Nat} {r k : Pattern w} {g : Gate}
    (hg : w % 8 = 0 ∨ g ≠ .nand) : (∃ x, (r.solve g k).value = .ok x) ↔
      ∀ j < octetCount w, ∃ y, (r.solveBytes g k)[j]? = some (.ok y) := by
  simp only [Pattern.exists_solve_iff, ne_eq, Gate.solve?_eq_none]
  constructor
  · intro h j hj
    rw [Pattern.exists_getElem?_solveBytes_iff hj]
    intro i hi hu
    exact h _ (Pattern.lt_of_unsolvable hg hj hi hu) hu
  · intro h n hn
    obtain ⟨j, i, hi, rfl⟩ := exists_place n
    have hj := lt_octetCount hn
    exact (Pattern.exists_getElem?_solveBytes_iff hj).1 (h j hj) i hi

theorem Pattern.exists_solveBytes_eq_map_ok {w : Nat} {r k : Pattern w} {g : Gate}
    (h : ∀ j < octetCount w, ∃ y, (r.solveBytes g k)[j]? = some (.ok y)) :
    ∃ ys : List (Pattern 8), r.solveBytes g k = ys.map .ok := by
  have hmem : r.solveBytes g k ∈ Set.range (List.map Except.ok) := by
    rw [Set.range_list_map]
    intro e he
    obtain ⟨j, hj⟩ := List.mem_iff_getElem?.1 he
    obtain ⟨hlt, -⟩ := List.getElem?_eq_some_iff.1 hj
    rw [Pattern.length_solveBytes] at hlt
    obtain ⟨y, hy⟩ := h j hlt
    exact ⟨y, Option.some.inj (hy.symm.trans hj)⟩
  obtain ⟨ys, hys⟩ := hmem
  exact ⟨ys, hys.symm⟩

theorem Pattern.ofBytes_of_solveBytes {w : Nat} {r k x : Pattern w} {g : Gate}
    {ys : List (Pattern 8)} (hx : (r.solve g k).value = .ok x)
    (hys : r.solveBytes g k = ys.map .ok) : Pattern.ofBytes ys = .ok x := by
  have hl : ys.length = octetCount w := by
    have h := congrArg List.length hys
    rw [Pattern.length_solveBytes, List.length_map] at h
    exact h.symm
  rw [Pattern.value_solve_eq_ok] at hx
  rw [Pattern.ofBytes_eq_ok]
  refine ⟨hl, fun j i hi hw => ?_⟩
  have hj := lt_octetCount hw
  have hy : (r.solveBytes g k)[j]? = some (.ok (ys.getD j default)) := by
    have hlt : j < ys.length := by rwa [hl]
    rw [hys, List.getElem?_map, List.getElem?_eq_getElem hlt, List.getD_eq_getElem _ _ hlt,
      Option.map_some]
  rw [Pattern.getElem?_solveBytes_eq_ok hj] at hy
  exact Option.some.inj ((hy i hi).symm.trans (hx _ hw))

theorem Pattern.value_solve_eq_error_bytes {w : Nat} {r k : Pattern w} {g : Gate} {f : Fault}
    (hg : w % 8 = 0 ∨ g ≠ .nand) : (r.solve g k).value = .error f ↔
      ∃ j i, f = .unsolvable g (8 * j + i) ∧
        (r.solveBytes g k)[j]? = some (.error (.unsolvable g i)) ∧
        ∀ m < j, ∃ y, (r.solveBytes g k)[m]? = some (.ok y) := by
  rw [Pattern.value_solve_eq_error]
  constructor
  · rintro ⟨n, rfl, ⟨hn, hu⟩, hlow⟩
    obtain ⟨j, i, hi, rfl⟩ := exists_place n
    have hj := lt_octetCount hn
    refine ⟨j, i, rfl, ?_, ?_⟩
    · rw [Pattern.getElem?_solveBytes_eq_unsolvable hj]
      refine ⟨⟨hi, hu⟩, fun m hm => ?_⟩
      have hle := hlow ⟨Pattern.lt_of_unsolvable hg hj hm.1 hm.2, hm.2⟩
      omega
    · intro m hm
      rw [Pattern.exists_getElem?_solveBytes_iff (by omega)]
      intro l hl hum
      have hle := hlow ⟨Pattern.lt_of_unsolvable hg (by omega) hl hum, hum⟩
      omega
  · rintro ⟨j, i, rfl, hfail, hbefore⟩
    have hj : j < octetCount w := by
      obtain ⟨hlt, -⟩ := List.getElem?_eq_some_iff.1 hfail
      rwa [Pattern.length_solveBytes] at hlt
    rw [Pattern.getElem?_solveBytes_eq_unsolvable hj] at hfail
    obtain ⟨⟨hi, hu⟩, hlow⟩ := hfail
    refine ⟨8 * j + i, rfl, ⟨Pattern.lt_of_unsolvable hg hj hi hu, hu⟩, ?_⟩
    rintro n ⟨hn, hun⟩
    obtain ⟨m, l, hl, rfl⟩ := exists_place n
    -- a lower obstacle would be in an earlier byte, or earlier in the same one
    rcases Nat.lt_trichotomy m j with hm | rfl | hm
    · have hok := (Pattern.exists_getElem?_solveBytes_iff (by omega)).1 (hbefore m hm)
      exact absurd hun (hok l hl)
    · have hle := hlow ⟨hl, hun⟩
      omega
    · omega

theorem Pattern.getLast?_solveBytes_nand {w : Nat} (r k : Pattern w) (hw : w % 8 ≠ 0) :
    ∃ i, (r.solveBytes .nand k).getLast? = some (.error (.unsolvable .nand i)) := by
  have hlast : octetCount w - 1 < octetCount w ∧ w ≤ 8 * (octetCount w - 1) + 7 := by
    unfold octetCount
    omega
  rw [List.getLast?_eq_getElem?, Pattern.length_solveBytes]
  apply Pattern.exists_error_getElem?_solveBytes hlast.1
  rw [Pattern.exists_getElem?_solveBytes_iff hlast.1]
  intro h
  have hfill := h 7 (by decide)
  rw [r.get_of_le hlast.2, k.get_of_le hlast.2] at hfill
  exact hfill (Gate.unsolvable_zero_zero.2 rfl)

/-- Bytes worked on one by one make what is worked out on the whole pattern. Only NAND, solved at a
width that leaves part of the last byte over, has no solution there. -/
theorem Pattern.bytewise_agree {w : Nat} (p q : Pattern w) :
    (∀ g, Pattern.ofBytes (List.zipWith (Pattern.apply g) p.toBytes q.toBytes) =
        .ok (p.apply g q)) ∧
      (∀ g, w % 8 = 0 ∨ g ≠ .nand →
        ((∃ x, (p.solve g q).value = .ok x) ↔
            ∀ j < octetCount w, ∃ y, (p.solveBytes g q)[j]? = some (.ok y)) ∧
          (∀ x, (p.solve g q).value = .ok x →
            ∃ ys : List (Pattern 8), p.solveBytes g q = ys.map .ok ∧ Pattern.ofBytes ys = .ok x) ∧
          ∀ f, (p.solve g q).value = .error f ↔
            ∃ j i, f = .unsolvable g (8 * j + i) ∧
              (p.solveBytes g q)[j]? = some (.error (.unsolvable g i)) ∧
              ∀ m < j, ∃ y, (p.solveBytes g q)[m]? = some (.ok y)) ∧
      (w % 8 ≠ 0 → ∃ i, (p.solveBytes .nand q).getLast? = some (.error (.unsolvable .nand i))) := by
  refine ⟨fun g => Pattern.ofBytes_zipWith_apply g p q, ?_, Pattern.getLast?_solveBytes_nand p q⟩
  intro g hg
  refine ⟨Pattern.exists_solve_iff_bytes hg, ?_, fun f => Pattern.value_solve_eq_error_bytes hg⟩
  intro x hx
  have hbytes := (Pattern.exists_solve_iff_bytes hg).1 ⟨x, hx⟩
  obtain ⟨ys, hys⟩ := Pattern.exists_solveBytes_eq_map_ok hbytes
  exact ⟨ys, hys, Pattern.ofBytes_of_solveBytes hx hys⟩

theorem Pattern.bytewise_agree_twelve :
    let r : Pattern 12 := ⟨[.one, .zero, .unknown, .one, .one, .zero, .zero, .one,
      .one, .zero, .unknown, .zero], rfl⟩
    let k : Pattern 12 := ⟨[.zero, .zero, .zero, .one, .unknown, .zero, .zero, .one,
      .unknown, .one, .zero, .one], rfl⟩
    (12 % 8 = 0 ∨ Gate.or ≠ .nand) ∧ (r.solve .or k).value = .error (.unsolvable .or 9) ∧
      (∃ j i, Fault.unsolvable .or 9 = .unsolvable .or (8 * j + i) ∧
        (r.solveBytes .or k)[j]? = some (.error (.unsolvable .or i)) ∧
        ∀ m < j, ∃ y, (r.solveBytes .or k)[m]? = some (.ok y)) ∧
      12 % 8 ≠ 0 ∧
      ∃ i, (r.solveBytes .nand k).getLast? = some (.error (.unsolvable .nand i)) := by
  intro r k
  have hor : 12 % 8 = 0 ∨ Gate.or ≠ .nand := .inr (by decide)
  have hfault : (r.solve .or k).value = .error (.unsolvable .or 9) := rfl
  obtain ⟨-, hsolve, hnand⟩ := Pattern.bytewise_agree r k
  exact ⟨hor, hfault, ((hsolve .or hor).2.2 _).1 hfault, by decide, hnand (by decide)⟩

end BitPattern
