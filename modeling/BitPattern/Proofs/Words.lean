import BitPattern.Pattern
import Mathlib.Data.Set.NAry
import Mathlib.Tactic.Choose

set_option autoImplicit false

namespace BitPattern

def Pattern.words {w : Nat} (p : Pattern w) : Set (Word w) := {a | p.Matches a}

theorem Pattern.mem_words {w : Nat} {p : Pattern w} {a : Word w} :
    a ∈ p.words ↔ ∀ i < w, (p.get i).Allows (a.get i) := Iff.rfl

theorem Row.exists_of_forall {α : Type} {w : Nat} [Inhabited α] {P : Nat → α → Prop}
    (h : ∀ i < w, ∃ x, P i x) : ∃ a : Row α w, ∀ i < w, P i (a.get i) := by
  have hx : ∀ i, ∃ x, i < w → P i x := by
    intro i
    by_cases hi : i < w
    · obtain ⟨x, hx⟩ := h i hi
      exact ⟨x, fun _ => hx⟩
    · exact ⟨default, fun h => absurd h hi⟩
  choose f hf using hx
  refine ⟨.ofFn f, fun i hi => ?_⟩
  rw [Row.get_ofFn, if_pos hi]
  exact hf i hi

theorem Row.all_zip {α β : Type} {w : Nat} [Inhabited α] [Inhabited β] (f : α × β → Bool)
    (a : Row α w) (b : Row β w) :
    (a.toList.zip b.toList).all f = true ↔ ∀ i < w, f (a.get i, b.get i) = true := by
  have ha := a.length_toList
  have hb := b.length_toList
  rw [List.all_eq_true, List.forall_mem_iff_forall_getElem]
  constructor
  · intro h i hi
    have hf := h i (by simp [ha, hb, hi])
    rw [List.getElem_zip] at hf
    rwa [a.get_eq_getElem, b.get_eq_getElem]
  · intro h i hi
    have hw : i < w := by simp [ha, hb] at hi; exact hi
    have hf := h i hw
    rw [a.get_eq_getElem (by omega), b.get_eq_getElem (by omega)] at hf
    rwa [List.getElem_zip]

theorem Word.get_not {w : Nat} (a : Word w) {i : Nat} (h : i < w) : (~~~a).get i = !a.get i :=
  Row.get_map _ _ h

theorem Word.get_apply {w : Nat} (g : Gate) (a b : Word w) {i : Nat} (h : i < w) :
    (a.apply g b).get i = g.eval (a.get i) (b.get i) :=
  Row.get_zipWith _ _ _ h

theorem Word.not_not {w : Nat} (a : Word w) : ~~~(~~~a) = a := by
  apply Row.ext_get
  intro i hi
  rw [Word.get_not _ hi, Word.get_not _ hi, Bool.not_not]

theorem Trit.exists_allows (t : Trit) : ∃ b, t.Allows b := by
  cases t with
  | zero => exact ⟨false, rfl⟩
  | one => exact ⟨true, rfl⟩
  | unknown => exact ⟨false, trivial⟩

theorem Trit.allows_not {t : Trit} {b : Bool} : t.not.Allows b ↔ t.Allows (!b) := by
  cases t <;> cases b <;> decide

theorem Pattern.exists_mem_words {w : Nat} {p : Pattern w} {i : Nat} (hi : i < w) {b : Bool}
    (hb : (p.get i).Allows b) : ∃ a ∈ p.words, a.get i = b := by
  have h : ∀ j < w, ∃ c, (p.get j).Allows c ∧ (j = i → c = b) := by
    intro j hj
    by_cases hji : j = i
    · subst hji
      exact ⟨b, hb, fun _ => rfl⟩
    · obtain ⟨c, hc⟩ := (p.get j).exists_allows
      exact ⟨c, hc, fun h => absurd h hji⟩
  obtain ⟨a, ha⟩ := Row.exists_of_forall h
  exact ⟨a, fun j hj => (ha j hj).1, (ha i hi).2 rfl⟩

theorem Pattern.forall_words_iff {w : Nat} {p : Pattern w} {P : Nat → Bool → Prop} :
    (∀ a ∈ p.words, ∀ i < w, P i (a.get i)) ↔ ∀ i < w, ∀ b, (p.get i).Allows b → P i b := by
  constructor
  · intro h i hi b hb
    obtain ⟨a, ha, rfl⟩ := Pattern.exists_mem_words hi hb
    exact h a ha i hi
  · intro h a ha i hi
    exact h i hi _ (ha i hi)

theorem Pattern.mem_words_not {w : Nat} {p : Pattern w} {a : Word w} :
    a ∈ (~~~p).words ↔ ~~~a ∈ p.words := by
  simp only [Pattern.mem_words]
  refine forall₂_congr fun i hi => ?_
  rw [Pattern.get_not p hi, Word.get_not a hi, Trit.allows_not]

theorem Pattern.overlaps_ofWord {w : Nat} {p : Pattern w} {a : Word w} :
    p.overlaps (.ofWord a) = true ↔ a ∈ p.words := by
  rw [Pattern.overlaps, Row.all_zip]
  refine forall₂_congr fun i hi => ?_
  rw [Pattern.get_ofWord a hi]
  generalize p.get i = t
  generalize a.get i = b
  cases t <;> cases b <;> decide

end BitPattern
