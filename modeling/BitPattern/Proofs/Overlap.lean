import BitPattern.Proofs.Remaining

set_option autoImplicit false

namespace BitPattern

variable {w : Nat} {p q : Pattern w}

theorem Pattern.overlaps_iff_allows : p.overlaps q = true ↔
    ∀ i < w, ∃ b, (p.get i).Allows b ∧ (q.get i).Allows b := by
  rw [Pattern.overlaps, Row.all_zip]
  refine forall₂_congr fun i _ => ?_
  generalize p.get i = s
  generalize q.get i = t
  cases s <;> cases t <;> decide

theorem Pattern.overlaps_iff : p.overlaps q = true ↔ (p.words ∩ q.words).Nonempty := by
  rw [Pattern.overlaps_iff_allows]
  constructor
  · intro h
    obtain ⟨a, ha⟩ := Row.exists_of_forall h
    exact ⟨a, fun i hi => (ha i hi).1, fun i hi => (ha i hi).2⟩
  · rintro ⟨a, hp, hq⟩ i hi
    exact ⟨a.get i, hp i hi, hq i hi⟩

theorem Pattern.overlaps_comm (p q : Pattern w) : p.overlaps q = q.overlaps p := by
  rw [Bool.eq_iff_iff, Pattern.overlaps_iff, Pattern.overlaps_iff, Set.inter_comm]

-- Overlapping is not transitive: an open bit overlaps with both of two different ones.
example :
    let p : Pattern 1 := ⟨[.zero], rfl⟩
    let q : Pattern 1 := ⟨[.one], rfl⟩
    p.overlaps .free = true ∧ Pattern.free.overlaps q = true ∧ p.overlaps q = false := by decide

theorem Pattern.mem_map_fill_indices (h : p.unknownCount ≤ 128) {a : Word w} :
    a ∈ p.indices.map p.fill ↔ a ∈ p.words := by
  rw [List.mem_map]
  constructor
  · rintro ⟨k, -, rfl⟩
    exact p.matches_fill k
  · intro ha
    have hk := p.gather_lt a
    rw [← Nat.min_eq_left h] at hk
    exact ⟨p.gather a, List.mem_range.2 hk, Pattern.fill_gather ha⟩

/-- Two patterns overlap exactly when some word agrees with every known bit of both, whichever of
them is asked. A pattern overlaps with a word that has its known bits, and, when its words can all
be numbered, with the patterns that overlap with one of its completions. -/
theorem Pattern.overlaps_exact (p q : Pattern w) :
    (p.overlaps q = true ↔ (p.words ∩ q.words).Nonempty) ∧
      p.overlaps q = q.overlaps p ∧
      (∀ a : Word w, p.overlaps (.ofWord a) = true ↔
        ∀ i < w, ∀ b, (p.get i).value? = some b → a.get i = b) ∧
      (p.unknownCount ≤ 128 → ∃ as, p.completions.value.Drains as ∧
        (p.overlaps q = true ↔ ∃ a ∈ as, q.overlaps (.ofWord a) = true)) := by
  refine ⟨Pattern.overlaps_iff, p.overlaps_comm q, fun a => ?_, fun h => ?_⟩
  · rw [Pattern.overlaps_ofWord, Pattern.mem_words]
    exact forall₂_congr fun i _ => Trit.allows_iff
  · refine ⟨_, p.visits_completions.drains, ?_⟩
    simp only [Pattern.overlaps_ofWord, Pattern.mem_map_fill_indices h]
    exact Pattern.overlaps_iff

theorem Pattern.overlaps_exact_widest :
    let p : Pattern 128 := .free
    p.unknownCount ≤ 128 ∧ ∃ as, p.completions.value.Drains as ∧
      (p.overlaps (.ofWord .ones) = true ↔
        ∃ a ∈ as, (Pattern.ofWord .ones).overlaps (.ofWord a) = true) := by
  intro p
  have hfew : p.unknownCount ≤ 128 := Nat.le_of_eq List.countP_replicate
  exact ⟨hfew, (Pattern.overlaps_exact p _).2.2.2 hfew⟩

end BitPattern
