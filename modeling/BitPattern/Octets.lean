set_option autoImplicit false

namespace BitPattern

def octetCount (n : Nat) : Nat := (n + 7) / 8

/-- Group `j` holds the positions from `8 * j` on. -/
def octets {α : Type} (xs : List α) : List (List α) :=
  (List.range (octetCount xs.length)).map fun j => (xs.drop (8 * j)).take 8

def flipOctets {α : Type} (xs : List α) : List α := (octets xs).flatMap List.reverse

@[simp] theorem octets_nil {α : Type} : octets ([] : List α) = [] := by
  simp [octets, octetCount]

@[simp] theorem length_octets {α : Type} (xs : List α) :
    (octets xs).length = octetCount xs.length := by simp [octets]

theorem getD_octets {α : Type} (xs : List α) (j : Nat) :
    (octets xs).getD j [] = (xs.drop (8 * j)).take 8 := by
  by_cases h : j < octetCount xs.length
  · simp [octets, h]
  · have hdrop : xs.length ≤ 8 * j := by
      unfold octetCount at h
      omega
    simp [octets, h, hdrop]

theorem length_le_of_mem_octets {α : Type} {xs g : List α} (h : g ∈ octets xs) :
    g.length ≤ 8 := by
  simp only [octets, List.mem_map] at h
  obtain ⟨j, -, rfl⟩ := h
  exact List.length_take_le 8 _

theorem length_getElem_octets {α : Type} (xs : List α) {j : Nat} (h : j < (octets xs).length) :
    (octets xs)[j].length = if j < xs.length / 8 then 8 else xs.length % 8 := by
  rw [length_octets, octetCount] at h
  simp only [octets, List.getElem_map, List.getElem_range, List.length_take, List.length_drop]
  split <;> omega

theorem octets_map {α β : Type} (f : α → β) (xs : List α) :
    octets (xs.map f) = (octets xs).map (List.map f) := by
  simp [octets, List.map_take, List.map_drop]

theorem octets_eq_cons {α : Type} {xs : List α} (h : xs ≠ []) :
    octets xs = xs.take 8 :: octets (xs.drop 8) := by
  have hpos := List.length_pos_iff.2 h
  have hn : octetCount xs.length = octetCount (xs.drop 8).length + 1 := by
    simp only [octetCount, List.length_drop]
    omega
  simp only [octets, hn, List.range_succ_eq_map, List.map_cons, List.map_map, Nat.mul_zero,
    List.drop_zero]
  congr 1
  apply List.map_congr_left
  intro j _
  simp [List.drop_drop, Nat.mul_add, Nat.add_comm]

theorem octets_of_length_le {α : Type} {xs : List α} (hx : xs ≠ []) (h : xs.length ≤ 8) :
    octets xs = [xs] := by
  rw [octets_eq_cons hx, List.take_of_length_le h, List.drop_of_length_le h, octets_nil]

/-- Whole groups in front leave the groups behind them as they are. -/
theorem octets_append {α : Type} {xs : List α} (h : 8 ∣ xs.length) (ys : List α) :
    octets (xs ++ ys) = octets xs ++ octets ys := by
  induction hn : xs.length using Nat.strongRecOn generalizing xs with
  | ind n ih =>
    by_cases hx : xs = []
    · simp [hx]
    · have hpos := List.length_pos_iff.2 hx
      have hle : 8 ≤ xs.length := by omega
      have hrest := ih (xs.drop 8).length (by simp; omega) (by simp; omega) rfl
      rw [octets_eq_cons (by simp [hx]), octets_eq_cons hx, List.take_append_of_le_length hle,
        List.drop_append_of_le_length hle, hrest, List.cons_append]

theorem octets_append_of_length_eq {α : Type} {xs : List α} (h : xs.length = 8) (ys : List α) :
    octets (xs ++ ys) = xs :: octets ys := by
  have hx : xs ≠ [] := List.ne_nil_of_length_pos (by omega)
  rw [octets_append (by omega), octets_of_length_le hx (by omega), List.singleton_append]

@[elab_as_elim] theorem octets_induction {α : Type} {P : List α → Prop}
    (last : ∀ xs, xs.length ≤ 8 → P xs)
    (group : ∀ xs ys, xs.length = 8 → ys ≠ [] → P ys → P (xs ++ ys)) (xs : List α) : P xs := by
  induction hn : xs.length using Nat.strongRecOn generalizing xs with
  | ind n ih =>
    by_cases h : xs.length ≤ 8
    · exact last xs h
    · rw [← List.take_append_drop 8 xs]
      refine group _ _ (by simp; omega) ?_ (ih (xs.drop 8).length (by simp; omega) _ rfl)
      intro hd
      have := List.drop_eq_nil_iff.1 hd
      omega

theorem flatten_octets {α : Type} (xs : List α) : (octets xs).flatten = xs := by
  induction xs using octets_induction with
  | last xs h =>
    by_cases hx : xs = []
    · simp [hx]
    · simp [octets_of_length_le hx h]
  | group xs ys hx _ ih => simp [octets_append_of_length_eq hx, ih]

theorem flipOctets_of_length_le {α : Type} {xs : List α} (h : xs.length ≤ 8) :
    flipOctets xs = xs.reverse := by
  by_cases hx : xs = []
  · simp [hx, flipOctets]
  · simp [flipOctets, octets_of_length_le hx h]

theorem flipOctets_append_of_length_eq {α : Type} {xs : List α} (h : xs.length = 8)
    (ys : List α) : flipOctets (xs ++ ys) = xs.reverse ++ flipOctets ys := by
  simp [flipOctets, octets_append_of_length_eq h]

@[simp] theorem length_flipOctets {α : Type} (xs : List α) :
    (flipOctets xs).length = xs.length := by
  induction xs using octets_induction with
  | last xs h => simp [flipOctets_of_length_le h]
  | group xs ys hx _ ih => simp [flipOctets_append_of_length_eq hx, ih]

@[simp] theorem flipOctets_flipOctets {α : Type} (xs : List α) :
    flipOctets (flipOctets xs) = xs := by
  induction xs using octets_induction with
  | last xs h => simp [flipOctets_of_length_le, h]
  | group xs ys hx _ ih =>
    rw [flipOctets_append_of_length_eq hx, flipOctets_append_of_length_eq (by simp [hx]), ih,
      List.reverse_reverse]

/-- The second list is the first one with its groups of eight turned around, one after another. -/
inductive OctetsFlipped {α : Type} : List α → List α → Prop where
  | last {xs : List α} : xs.length ≤ 8 → OctetsFlipped xs xs.reverse
  | group {xs ys zs : List α} : xs.length = 8 → OctetsFlipped ys zs →
      OctetsFlipped (xs ++ ys) (xs.reverse ++ zs)

theorem octetsFlipped_iff {α : Type} {xs zs : List α} :
    OctetsFlipped xs zs ↔ flipOctets xs = zs := by
  constructor
  · intro h
    induction h with
    | last h => exact flipOctets_of_length_le h
    | group hx _ ih => rw [flipOctets_append_of_length_eq hx, ih]
  · rintro rfl
    induction xs using octets_induction with
    | last xs h =>
      rw [flipOctets_of_length_le h]
      exact .last h
    | group xs ys hx _ ih =>
      rw [flipOctets_append_of_length_eq hx]
      exact .group hx ih

example : flipOctets [0, 1, 2, 3, 4, 5, 6, 7, 8, 9] = [7, 6, 5, 4, 3, 2, 1, 0, 9, 8] := by decide

end BitPattern
