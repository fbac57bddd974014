import BitPattern.Proofs.Words

/-!
Shifts. A shifted row takes each entry from a position of its own, and no entry is taken twice, so
that shifting the words of a pattern gives the words of the shifted pattern: what falls off is
forgotten, and what comes in is known to be clear. Gates are applied position by position and see
the difference only where nothing comes in, as far as they turn two clear bits into a set one.
-/

set_option autoImplicit false

namespace BitPattern

/-- No entry of a row of width `w` comes to position `i`. -/
def Vacated (w : Nat) (source : Nat → Option Nat) (i : Nat) : Prop := ∀ j < w, source i ≠ some j

theorem exists_source {w i : Nat} {source : Nat → Option Nat} (h : ¬Vacated w source i) :
    ∃ j < w, source i = some j := by
  simpa [Vacated] using h

theorem Row.get_pull_of_vacated {α : Type} {w i : Nat} [Inhabited α] {source : Nat → Option Nat}
    (a : Row α w) (h : Vacated w source i) : (a.pull source).get i = default := by
  by_cases hi : i < w
  · rw [Row.get_pull source a hi]
    cases hs : source i with
    | none => rfl
    | some j => exact a.get_of_le (Nat.le_of_not_lt fun hj => h j hj hs)
  · exact Row.get_of_le _ (Nat.le_of_not_lt hi)

theorem Row.get_pull_of_eq_some {α : Type} {w i j : Nat} [Inhabited α] {source : Nat → Option Nat}
    (a : Row α w) (hi : i < w) (h : source i = some j) : (a.pull source).get i = a.get j := by
  rw [Row.get_pull source a hi, h, Option.elim_some]

theorem Pattern.pull_mem_words {w : Nat} {p : Pattern w} {a : Word w} (h : a ∈ p.words)
    (source : Nat → Option Nat) : a.pull source ∈ Pattern.words (p.pull source) := by
  intro i hi
  by_cases hv : Vacated w source i
  · rw [p.get_pull_of_vacated hv, a.get_pull_of_vacated hv]
    rfl
  · obtain ⟨j, hj, hs⟩ := exists_source hv
    rw [p.get_pull_of_eq_some hi hs, a.get_pull_of_eq_some hi hs]
    exact h j hj

/-- The word is put together backwards: an entry that is pulled somewhere is read there, and any
other is free. -/
theorem Pattern.exists_pull_eq {w : Nat} {source : Nat → Option Nat} {p : Pattern w} {b : Word w}
    (hsource : ∀ i j n, source i = some n → source j = some n → i = j)
    (hb : b ∈ Pattern.words (p.pull source)) : ∃ a ∈ p.words, a.pull source = b := by
  have hentry : ∀ n < w, ∃ x, (p.get n).Allows x ∧ ∀ i < w, source i = some n → b.get i = x := by
    intro n hn
    by_cases hread : ∃ i < w, source i = some n
    · obtain ⟨i, hi, hs⟩ := hread
      have hallows := hb i hi
      rw [p.get_pull_of_eq_some hi hs] at hallows
      refine ⟨b.get i, hallows, fun j _ hsj => ?_⟩
      rw [hsource j i n hsj hs]
    · obtain ⟨x, hx⟩ := (p.get n).exists_allows
      exact ⟨x, hx, fun i hi hs => absurd ⟨i, hi, hs⟩ hread⟩
  obtain ⟨a, ha⟩ := Row.exists_of_forall hentry
  refine ⟨a, fun n hn => (ha n hn).1, Row.ext_get fun i hi => ?_⟩
  by_cases hv : Vacated w source i
  · have hallows := hb i hi
    rw [p.get_pull_of_vacated hv] at hallows
    exact (a.get_pull_of_vacated hv).trans hallows.symm
  · obtain ⟨n, hn, hs⟩ := exists_source hv
    rw [a.get_pull_of_eq_some hi hs]
    exact ((ha n hn).2 i hi hs).symm

theorem Pattern.image_pull {w : Nat} {source : Nat → Option Nat} (p : Pattern w)
    (hsource : ∀ i j n, source i = some n → source j = some n → i = j) :
    (fun a : Word w => a.pull source) '' p.words = Pattern.words (p.pull source) := by
  apply Set.Subset.antisymm
  · rintro _ ⟨a, ha, rfl⟩
    exact Pattern.pull_mem_words ha source
  · intro b hb
    exact Pattern.exists_pull_eq hsource hb

theorem Pattern.get_pull_apply {w i : Nat} {source : Nat → Option Nat} (g : Gate)
    (p q : Pattern w) (hi : i < w) (h : ¬Vacated w source i) :
    ((p.apply g q).pull source).get i =
      (Pattern.apply g (p.pull source) (q.pull source)).get i := by
  obtain ⟨j, hj, hs⟩ := exists_source h
  rw [Pattern.get_apply g _ _ hi, Row.get_pull_of_eq_some _ hi hs, p.get_pull_of_eq_some hi hs,
    q.get_pull_of_eq_some hi hs, Pattern.get_apply g p q hj]

theorem Pattern.get_apply_pull_of_vacated {w i : Nat} {source : Nat → Option Nat} (g : Gate)
    (p q : Pattern w) (hi : i < w) (h : Vacated w source i) :
    (Pattern.apply g (p.pull source) (q.pull source)).get i = g.apply .zero .zero := by
  rw [Pattern.get_apply g _ _ hi, p.get_pull_of_vacated h, q.get_pull_of_vacated h]
  rfl

/-- The patterns differ exactly at these positions, and there `p` is clear and `q` is set. -/
def Pattern.DifferAt {w : Nat} (positions : Nat → Prop) (p q : Pattern w) : Prop :=
  ∀ i < w, (p.get i ≠ q.get i ↔ positions i) ∧ (positions i → p.get i = .zero ∧ q.get i = .one)

/-- The patterns agree but at these positions, where `p` is clear and `q` is `t`. -/
def Pattern.AgreeBut {w : Nat} (positions : Nat → Prop) (t : Trit) (p q : Pattern w) : Prop :=
  ∀ i < w, (positions i → p.get i = .zero ∧ q.get i = t) ∧ (¬positions i → p.get i = q.get i)

theorem Pattern.AgreeBut.eq {w : Nat} {positions : Nat → Prop} {p q : Pattern w}
    (h : Pattern.AgreeBut positions .zero p q) : p = q := by
  apply Row.ext_get
  intro i hi
  by_cases hp : positions i
  · obtain ⟨hleft, hright⟩ := (h i hi).1 hp
    rw [hleft, hright]
  · exact (h i hi).2 hp

theorem Pattern.AgreeBut.differAt {w : Nat} {positions : Nat → Prop} {p q : Pattern w}
    (h : Pattern.AgreeBut positions .one p q) : Pattern.DifferAt positions p q := by
  intro i hi
  refine ⟨⟨fun hne => ?_, fun hp => ?_⟩, (h i hi).1⟩
  · by_contra hp
    exact hne ((h i hi).2 hp)
  · obtain ⟨hleft, hright⟩ := (h i hi).1 hp
    rw [hleft, hright]
    decide

theorem Pattern.agreeBut_pull_apply {w : Nat} (g : Gate) {source : Nat → Option Nat}
    {positions : Nat → Prop} (hvacated : ∀ i < w, Vacated w source i ↔ positions i)
    (p q : Pattern w) : Pattern.AgreeBut positions (g.apply .zero .zero)
      ((p.apply g q).pull source) (Pattern.apply g (p.pull source) (q.pull source)) := by
  intro i hi
  rw [← hvacated i hi]
  exact ⟨fun hv => ⟨Row.get_pull_of_vacated _ hv, Pattern.get_apply_pull_of_vacated g p q hi hv⟩,
    Pattern.get_pull_apply g p q hi⟩

theorem Pattern.pull_apply {w : Nat} {g : Gate} (hg : g.apply .zero .zero = .zero)
    (source : Nat → Option Nat) (p q : Pattern w) :
    (p.apply g q).pull source = Pattern.apply g (p.pull source) (q.pull source) := by
  have hagree := Pattern.agreeBut_pull_apply g (fun i _ => Iff.refl (Vacated w source i)) p q
  rw [hg] at hagree
  exact hagree.eq

theorem Pattern.differAt_pull_apply {w : Nat} {g : Gate} (hg : g.apply .zero .zero = .one)
    {source : Nat → Option Nat} {positions : Nat → Prop}
    (hvacated : ∀ i < w, Vacated w source i ↔ positions i) (p q : Pattern w) :
    Pattern.DifferAt positions ((p.apply g q).pull source)
      (Pattern.apply g (p.pull source) (q.pull source)) := by
  have hagree := Pattern.agreeBut_pull_apply g hvacated p q
  rw [hg] at hagree
  exact hagree.differAt

theorem vacated_subtract?_iff {w k i : Nat} (hi : i < w) :
    Vacated w (subtract? · k) i ↔ i < k := by
  simp only [Vacated, ne_eq, subtract?_eq_some]
  constructor
  · intro h
    have hfrom := h (i - k) (by omega)
    omega
  · intro h j _
    omega

theorem vacated_add?_iff {w k i : Nat} :
    Vacated w (add? (max w lengthLimit) · k) i ↔ w ≤ i + k := by
  simp only [Vacated, ne_eq, add?, within?_eq_some]
  constructor
  · intro h
    by_contra hlt
    exact h (i + k) (by omega) ⟨by omega, rfl⟩
  · intro h j hj
    omega

theorem Pattern.image_shiftLeft {w : Nat} (p : Pattern w) (k : Nat) :
    (fun a : Word w => a <<< k) '' p.words = (p <<< k).words := by
  apply p.image_pull
  intro i j n hi hj
  rw [subtract?_eq_some] at hi hj
  omega

theorem Pattern.image_shiftRight {w : Nat} (p : Pattern w) (k : Nat) :
    (fun a : Word w => a >>> k) '' p.words = (p >>> k).words := by
  apply p.image_pull
  intro i j n hi hj
  rw [add?, within?_eq_some] at hi hj
  omega

theorem Pattern.get_shiftLeft {w : Nat} (p : Pattern w) (k i : Nat) :
    (p <<< k).get i = if i < w ∧ k ≤ i then p.get (i - k) else .zero :=
  Row.get_shiftLeft p k i

theorem Pattern.get_shiftRight {w : Nat} (p : Pattern w) (k i : Nat) :
    (p >>> k).get i = p.get (i + k) :=
  Row.get_shiftRight p k i

theorem Pattern.shiftLeft_shiftLeft {w : Nat} (p : Pattern w) (j k : Nat) :
    (p <<< j) <<< k = p <<< (j + k) := by
  apply Row.ext_get
  intro i hi
  simp only [Pattern.get_shiftLeft, hi, true_and]
  by_cases hboth : j + k ≤ i
  · have hplace : i - k - j = i - (j + k) := by omega
    rw [if_pos (by omega), if_pos (by omega), if_pos hboth, hplace]
  · by_cases hk : k ≤ i
    · rw [if_pos hk, if_neg (by omega), if_neg hboth]
    · rw [if_neg hk, if_neg hboth]

theorem Pattern.shiftRight_shiftRight {w : Nat} (p : Pattern w) (j k : Nat) :
    (p >>> j) >>> k = p >>> (j + k) :=
  Row.ext_get fun i _ => by simp [Pattern.get_shiftRight, Nat.add_assoc, Nat.add_comm k]

theorem Pattern.shiftLeft_of_le {w k : Nat} (p : Pattern w) (h : w ≤ k) :
    p <<< k = .replicate .zero := by
  apply Row.ext_get
  intro i hi
  simp [Pattern.get_shiftLeft, hi, show ¬k ≤ i by omega]

theorem Pattern.shiftRight_of_le {w k : Nat} (p : Pattern w) (h : w ≤ k) :
    p >>> k = .replicate .zero := by
  apply Row.ext_get
  intro i hi
  have hpast : p.get (i + k) = .zero := p.get_of_le (by omega)
  simp [Pattern.get_shiftRight, hi, hpast]

theorem Pattern.get_shiftLeft_shiftRight {w : Nat} (p : Pattern w) (k i : Nat) :
    ((p <<< k) >>> k).get i = if w ≤ i + k then .zero else p.get i := by
  rw [Pattern.get_shiftRight, Pattern.get_shiftLeft]
  by_cases h : w ≤ i + k <;> simp [h, Nat.not_lt.2, Nat.lt_of_not_le]

theorem Pattern.get_shiftRight_shiftLeft {w i : Nat} (p : Pattern w) (k : Nat) (hi : i < w) :
    ((p >>> k) <<< k).get i = if i < k then .zero else p.get i := by
  rw [Pattern.get_shiftLeft, Pattern.get_shiftRight]
  by_cases h : i < k
  · simp [h, Nat.not_le.2 h]
  · simp [h, hi, Nat.le_of_not_lt h]

/-- Two shifts to one side are one by the sum of their counts, and from the width on, as past any
length that can be named, a count leaves clear bits only. A shift and the one back clear what fell
off. The words of a shifted pattern are the shifted words. AND, OR and XOR can be applied before
the shift or after it, and the negated gates too except where nothing comes in: there the shift
leaves a clear bit, and the gate sets it if it is applied afterwards. -/
theorem Pattern.shift_laws {w : Nat} (p q : Pattern w) (j k : Nat) :
    ((p <<< j) <<< k = p <<< (j + k) ∧ (p >>> j) >>> k = p >>> (j + k)) ∧
      (w ≤ j + k → p <<< (j + k) = .replicate .zero ∧ p >>> (j + k) = .replicate .zero) ∧
      (∀ i < w, ((p <<< k) >>> k).get i = (if w ≤ i + k then .zero else p.get i) ∧
        ((p >>> k) <<< k).get i = if i < k then .zero else p.get i) ∧
      ((fun a : Word w => a <<< k) '' p.words = (p <<< k).words ∧
        (fun a : Word w => a >>> k) '' p.words = (p >>> k).words) ∧
      (∀ g, g = .and ∨ g = .or ∨ g = .xor →
        p.apply g q <<< k = (p <<< k).apply g (q <<< k) ∧
          p.apply g q >>> k = (p >>> k).apply g (q >>> k)) ∧
      ∀ g, g = .nand ∨ g = .nor ∨ g = .xnor →
        Pattern.DifferAt (· < k) (p.apply g q <<< k) ((p <<< k).apply g (q <<< k)) ∧
          Pattern.DifferAt (w ≤ · + k) (p.apply g q >>> k) ((p >>> k).apply g (q >>> k)) := by
  refine ⟨⟨p.shiftLeft_shiftLeft j k, p.shiftRight_shiftRight j k⟩, ?_, ?_,
    ⟨p.image_shiftLeft k, p.image_shiftRight k⟩, ?_, ?_⟩
  · intro h
    exact ⟨p.shiftLeft_of_le h, p.shiftRight_of_le h⟩
  · intro i hi
    exact ⟨p.get_shiftLeft_shiftRight k i, p.get_shiftRight_shiftLeft k hi⟩
  · intro g hg
    have hzero : g.apply .zero .zero = .zero := by rcases hg with rfl | rfl | rfl <;> rfl
    exact ⟨Pattern.pull_apply hzero _ p q, Pattern.pull_apply hzero _ p q⟩
  · intro g hg
    have hone : g.apply .zero .zero = .one := by rcases hg with rfl | rfl | rfl <;> rfl
    exact ⟨Pattern.differAt_pull_apply hone (fun _ hi => vacated_subtract?_iff hi) p q,
      Pattern.differAt_pull_apply hone (fun _ _ => vacated_add?_iff) p q⟩

end BitPattern
