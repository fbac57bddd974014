import BitPattern.Limit

/-!
Rows: lists of exactly `w` entries, position 0 first. A row reads as `default` past its end, and a
list that is too short is filled up with `default`. Everything is said position by position:
`get_ofFn` reads back what `ofFn` was built from, and `ext_get` tells rows apart by their positions.
-/

set_option autoImplicit false

namespace BitPattern

structure Row (α : Type) (w : Nat) where
  toList : List α
  length_toList : toList.length = w
  deriving DecidableEq, Repr

def Row.ofFn {α : Type} {w : Nat} (f : Nat → α) : Row α w :=
  ⟨(List.range w).map f, by simp⟩

def Row.get {α : Type} {w : Nat} [Inhabited α] (a : Row α w) (i : Nat) : α :=
  a.toList.getD i default

/-- Fills up with `default` or cuts off to the width. -/
def Row.ofList {α : Type} {w : Nat} [Inhabited α] (xs : List α) : Row α w :=
  .ofFn fun i => xs.getD i default

def Row.replicate {α : Type} {w : Nat} (x : α) : Row α w := ⟨List.replicate w x, by simp⟩

instance {α : Type} {w : Nat} [Inhabited α] : Inhabited (Row α w) := ⟨.replicate default⟩

def Row.map {α β : Type} {w : Nat} (f : α → β) (a : Row α w) : Row β w :=
  ⟨a.toList.map f, by simp [a.length_toList]⟩

def Row.zipWith {α β γ : Type} {w : Nat} [Inhabited α] [Inhabited β] (f : α → β → γ)
    (a : Row α w) (b : Row β w) : Row γ w :=
  .ofFn fun i => f (a.get i) (b.get i)

/-- Position `i` takes the entry of position `source i`, or `default` if it has no source. -/
def Row.pull {α : Type} {w : Nat} [Inhabited α] (source : Nat → Option Nat) (a : Row α w) :
    Row α w :=
  .ofFn fun i => (source i).elim default a.get

def Row.shiftLeft {α : Type} {w : Nat} [Inhabited α] (a : Row α w) (k : Nat) : Row α w :=
  a.pull (subtract? · k)

/-- Moves every entry towards the start; the last `k` positions become `default`. A position past
the largest length has no entry. -/
def Row.shiftRight {α : Type} {w : Nat} [Inhabited α] (a : Row α w) (k : Nat) : Row α w :=
  a.pull (add? (max w lengthLimit) · k)

def Row.countDistinct {α : Type} {w : Nat} [DecidableEq α] (rows : List (Row α w)) : Nat :=
  rows.eraseDups.length

theorem Row.get_eq_getElem {α : Type} {w : Nat} [Inhabited α] (a : Row α w) {i : Nat}
    (h : i < a.toList.length) : a.get i = a.toList[i] := by
  simp [Row.get, h]

theorem Row.get_of_le {α : Type} {w : Nat} [Inhabited α] (a : Row α w) {i : Nat} (h : w ≤ i) :
    a.get i = default := by
  simp [Row.get, a.length_toList, h]

@[simp] theorem Row.get_ofFn {α : Type} {w : Nat} [Inhabited α] (f : Nat → α) (i : Nat) :
    (Row.ofFn f : Row α w).get i = if i < w then f i else default := by
  by_cases h : i < w <;> simp [Row.get, Row.ofFn, h]

theorem Row.ext_get {α : Type} {w : Nat} [Inhabited α] {a b : Row α w}
    (h : ∀ i < w, a.get i = b.get i) : a = b := by
  obtain ⟨xs, hx⟩ := a
  obtain ⟨ys, hy⟩ := b
  have hl : xs = ys := by
    apply List.ext_getElem (by omega)
    intro i h₁ h₂
    have := h i (by omega)
    simpa [Row.get, h₁, h₂] using this
  subst hl
  rfl

@[simp] theorem Row.get_ofList {α : Type} {w : Nat} [Inhabited α] (xs : List α) (i : Nat) :
    (Row.ofList xs : Row α w).get i = if i < w then xs.getD i default else default :=
  Row.get_ofFn _ _

@[simp] theorem Row.ofList_toList {α : Type} {w : Nat} [Inhabited α] (a : Row α w) :
    Row.ofList a.toList = a :=
  Row.ext_get fun i h => by rw [Row.get_ofList, if_pos h]; rfl

@[simp] theorem Row.get_replicate {α : Type} {w : Nat} [Inhabited α] (x : α) (i : Nat) :
    (Row.replicate x : Row α w).get i = if i < w then x else default := by
  by_cases h : i < w <;> simp [Row.get, Row.replicate, h]

theorem Row.get_map {α β : Type} {w : Nat} [Inhabited α] [Inhabited β] (f : α → β) (a : Row α w)
    {i : Nat} (h : i < w) : (a.map f).get i = f (a.get i) := by
  simp [Row.get, Row.map, a.length_toList, h]

theorem Row.get_zipWith {α β γ : Type} {w : Nat} [Inhabited α] [Inhabited β] [Inhabited γ]
    (f : α → β → γ) (a : Row α w) (b : Row β w) {i : Nat} (h : i < w) :
    (a.zipWith f b).get i = f (a.get i) (b.get i) := by
  rw [Row.zipWith, Row.get_ofFn, if_pos h]

theorem Row.get_pull {α : Type} {w : Nat} [Inhabited α] (source : Nat → Option Nat)
    (a : Row α w) {i : Nat} (h : i < w) :
    (a.pull source).get i = (source i).elim default a.get := by
  rw [Row.pull, Row.get_ofFn, if_pos h]

theorem Row.get_shiftLeft {α : Type} {w : Nat} [Inhabited α] (a : Row α w) (k i : Nat) :
    (a.shiftLeft k).get i = if i < w ∧ k ≤ i then a.get (i - k) else default := by
  by_cases h : i < w
  · by_cases hk : k ≤ i <;> simp [Row.shiftLeft, Row.get_pull _ _ h, subtract?, h, hk]
  · rw [Row.get_of_le _ (Nat.le_of_not_lt h), if_neg fun hi => h hi.1]

theorem Row.get_shiftRight {α : Type} {w : Nat} [Inhabited α] (a : Row α w) (k i : Nat) :
    (a.shiftRight k).get i = a.get (i + k) := by
  by_cases h : i < w
  · rw [Row.shiftRight, Row.get_pull _ _ h, add?, within?]
    by_cases hlimit : i + k ≤ max w lengthLimit
    · rw [if_pos hlimit, Option.elim_some]
    · rw [if_neg hlimit, Option.elim_none, a.get_of_le (by omega)]
  · rw [Row.get_of_le _ (Nat.le_of_not_lt h), a.get_of_le (by omega)]

end BitPattern
