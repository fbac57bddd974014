import BitPattern.Pattern.Bytes
import Mathlib.Algebra.GroupWithZero.Nat
import Mathlib.Data.List.GetD

set_option autoImplicit false

namespace BitPattern

/-- The first `n` entries stay, the others become `default`. -/
def Row.keep {α : Type} {w : Nat} [Inhabited α] (n : Nat) (a : Row α w) : Row α w :=
  .ofFn fun i => if i < n then a.get i else default

theorem Row.get_keep {α : Type} {w : Nat} [Inhabited α] (n : Nat) (a : Row α w) {i : Nat}
    (h : i < w) : (a.keep n).get i = if i < n then a.get i else default := by
  rw [Row.keep, Row.get_ofFn, if_pos h]

theorem Row.get_default {α : Type} {w : Nat} [Inhabited α] (i : Nat) :
    (default : Row α w).get i = default := by
  have h := Row.get_replicate (w := w) (default : α) i
  rwa [ite_self] at h

theorem Row.toList_ofList_of_le {α : Type} {w : Nat} [Inhabited α] {xs : List α}
    (h : xs.length ≤ w) :
    (Row.ofList xs : Row α w).toList = xs ++ List.replicate (w - xs.length) default := by
  apply List.ext_getElem (by simp [(Row.ofList xs : Row α w).length_toList, h])
  intro i hi _
  have hw : i < w := by rwa [Row.length_toList] at hi
  rw [← Row.get_eq_getElem _ hi, Row.get_ofList, if_pos hw]
  by_cases hx : i < xs.length
  · rw [List.getElem_append_left hx, List.getD_eq_getElem _ _ hx]
  · rw [List.getElem_append_right (Nat.le_of_not_lt hx), List.getElem_replicate,
      List.getD_eq_default _ _ (Nat.le_of_not_lt hx)]

theorem exists_place (n : Nat) : ∃ j i, i < 8 ∧ 8 * j + i = n :=
  ⟨n / 8, n % 8, by omega, by omega⟩

theorem lt_octetCount {w j i : Nat} (h : 8 * j + i < w) : j < octetCount w := by
  unfold octetCount
  omega

theorem Pattern.getD_toBytes {w : Nat} (p : Pattern w) (j : Nat) :
    p.toBytes.getD j default = Row.ofList ((p.toList.drop (8 * j)).take 8) := by
  have hnil : (Row.ofList [] : Pattern 8) = default := by
    apply Row.ext_get
    intro i _
    simp [Row.get_default]
  rw [← getD_octets, Pattern.toBytes, ← hnil]
  exact List.getD_map _ _ _

theorem Pattern.get_getD_toBytes {w : Nat} (p : Pattern w) (j : Nat) {i : Nat} (h : i < 8) :
    (p.toBytes.getD j default).get i = p.get (8 * j + i) := by
  rw [p.getD_toBytes, Row.get_ofList, if_pos h]
  simp [h, Row.get, List.getD_eq_getElem?_getD, List.getElem?_drop]

theorem getD_joinBytes (bytes : List (Pattern 8)) (j : Nat) {i : Nat} (h : i < 8) :
    (joinBytes bytes).getD (8 * j + i) default = (bytes.getD j default).get i := by
  induction bytes generalizing j with
  | nil => simp [joinBytes, Row.get_default]
  | cons b bytes ih =>
    have hb : b.toList.length = 8 := b.length_toList
    have hjoin : joinBytes (b :: bytes) = b.toList ++ joinBytes bytes := rfl
    rw [hjoin]
    cases j with
    | zero =>
      rw [List.getD_append _ _ _ _ (by omega), Nat.mul_zero, Nat.zero_add]
      rfl
    | succ j =>
      have hplace : 8 * (j + 1) + i - 8 = 8 * j + i := by omega
      rw [List.getD_append_right _ _ _ _ (by omega), hb, hplace, ih, List.getD_cons_succ]

theorem Pattern.ofBytes_eq_ok {w : Nat} {bytes : List (Pattern 8)} {p : Pattern w} :
    Pattern.ofBytes bytes = .ok p ↔ bytes.length = octetCount w ∧
      ∀ j i, i < 8 → 8 * j + i < w → (bytes.getD j default).get i = p.get (8 * j + i) := by
  have hget : ∀ j i, i < 8 → 8 * j + i < w →
      (Row.ofList (joinBytes bytes) : Pattern w).get (8 * j + i) =
        (bytes.getD j default).get i := by
    intro j i hi hw
    rw [Row.get_ofList, if_pos hw, getD_joinBytes _ _ hi]
  rw [Pattern.ofBytes]
  by_cases hl : bytes.length = octetCount w
  · rw [if_pos hl]
    constructor
    · intro h
      cases h
      exact ⟨hl, fun j i hi hw => (hget j i hi hw).symm⟩
    · rintro ⟨-, h⟩
      refine congrArg Except.ok (Row.ext_get fun n hn => ?_)
      obtain ⟨j, i, hi, rfl⟩ := exists_place n
      rw [hget j i hi hn, h j i hi hn]
  · simp [hl]

theorem Pattern.ofBytes_toBytes {w : Nat} (p : Pattern w) : Pattern.ofBytes p.toBytes = .ok p :=
  Pattern.ofBytes_eq_ok.2 ⟨p.length_toBytes, fun j _ hi _ => p.get_getD_toBytes j hi⟩

theorem unknownCount_ofList {ts : List Trit} (h : ts.length ≤ 8) :
    Pattern.unknownCount (Row.ofList ts : Pattern 8) = ts.countP Trit.isUnknown := by
  rw [Pattern.unknownCount, Row.toList_ofList_of_le h, List.countP_append, List.countP_replicate]
  rfl

theorem Pattern.map_unknownCount_toBytes {w : Nat} (p : Pattern w) :
    p.toBytes.map Pattern.unknownCount = (octets p.toList).map (List.countP Trit.isUnknown) := by
  rw [Pattern.toBytes, List.map_map]
  exact List.map_congr_left fun ts h => unknownCount_ofList (length_le_of_mem_octets h)

theorem Pattern.sum_unknownCount_toBytes {w : Nat} (p : Pattern w) :
    (p.toBytes.map Pattern.unknownCount).sum = p.unknownCount := by
  rw [p.map_unknownCount_toBytes, ← List.countP_flatten, flatten_octets, Pattern.unknownCount]

theorem bytes_ext {xs ys : List (Pattern 8)} (hl : xs.length = ys.length)
    (h : ∀ j < ys.length, ∀ i < 8, (xs.getD j default).get i = (ys.getD j default).get i) :
    xs = ys := by
  apply List.ext_getElem hl
  intro j hx hy
  apply Row.ext_get
  intro i hi
  have hbit := h j hy i hi
  rwa [List.getD_eq_getElem _ _ hx, List.getD_eq_getElem _ _ hy] at hbit

theorem getD_modify {α : Type} (f : α → α) (xs : List α) (d : α) {i j : Nat} (h : j < xs.length) :
    (xs.modify i f).getD j d = if i = j then f (xs.getD j d) else xs.getD j d := by
  rw [List.getD_eq_getElem _ _ (by simpa using h), List.getD_eq_getElem _ _ h, List.getElem_modify]

theorem Pattern.toBytes_of_ofBytes {w : Nat} {bytes : List (Pattern 8)} {p : Pattern w}
    (h : Pattern.ofBytes bytes = .ok p) : p.toBytes =
      if w % 8 = 0 then bytes else bytes.modify (bytes.length - 1) (Row.keep (w % 8)) := by
  obtain ⟨hl, hbit⟩ := Pattern.ofBytes_eq_ok.1 h
  have hcount := hl
  unfold octetCount at hcount
  by_cases hw : w % 8 = 0
  · rw [if_pos hw]
    apply bytes_ext (by simp [hl])
    intro j hj i hi
    rw [p.get_getD_toBytes j hi, hbit j i hi (by omega)]
  · -- the last byte begins below the width and ends past it
    rw [if_neg hw]
    apply bytes_ext (by simp [hl])
    intro j hj i hi
    rw [List.length_modify] at hj
    rw [p.get_getD_toBytes j hi, getD_modify _ _ _ hj]
    by_cases hlast : bytes.length - 1 = j
    · rw [if_pos hlast, Row.get_keep _ _ hi]
      by_cases hbelow : i < w % 8
      · rw [if_pos hbelow, hbit j i hi (by omega)]
      · rw [if_neg hbelow, p.get_of_le (by omega)]
    · rw [if_neg hlast, hbit j i hi (by omega)]

/-- A pattern is its bytes, one for every eight positions begun, with as many unknown bits in all.
Any such number of bytes makes a pattern, which keeps all of them but the bits of the last one past
the width. -/
theorem Pattern.bytes_exact (w : Nat) :
    (∀ p : Pattern w, Pattern.ofBytes p.toBytes = .ok p ∧ p.toBytes.length = octetCount w ∧
        (p.toBytes.map Pattern.unknownCount).sum = p.unknownCount) ∧
      ∀ bytes : List (Pattern 8),
        if bytes.length = octetCount w then
          ∃ p : Pattern w, Pattern.ofBytes bytes = .ok p ∧ p.toBytes =
            if w % 8 = 0 then bytes else bytes.modify (bytes.length - 1) (Row.keep (w % 8))
        else
          (Pattern.ofBytes bytes : Except Fault (Pattern w)) =
            .error (.lengthMismatch (octetCount w) bytes.length) := by
  refine ⟨?_, ?_⟩
  · intro p
    exact ⟨p.ofBytes_toBytes, p.length_toBytes, p.sum_unknownCount_toBytes⟩
  · intro bytes
    by_cases hl : bytes.length = octetCount w
    · have hok : Pattern.ofBytes bytes = .ok (Row.ofList (joinBytes bytes) : Pattern w) :=
        if_pos hl
      rw [if_pos hl]
      exact ⟨_, hok, Pattern.toBytes_of_ofBytes hok⟩
    · rw [if_neg hl, Pattern.ofBytes, if_neg hl]

end BitPattern
