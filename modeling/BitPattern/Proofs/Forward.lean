import BitPattern.Proofs.Gates

/-!
Operations on patterns against the same operations on all their words. Every word that can arise
is among the result's words; only AND and NAND may allow more, where a known clear bit meets an
unknown one.
-/

set_option autoImplicit false

namespace BitPattern

theorem Pattern.mem_image_apply {w : Nat} {p q : Pattern w} {g : Gate} {c : Word w} :
    c ∈ Set.image2 (Word.apply g) p.words q.words ↔
      ∀ i < w, g.Reaches (p.get i) (q.get i) (c.get i) := by
  constructor
  · rintro ⟨a, ha, b, hb, rfl⟩ i hi
    exact ⟨a.get i, b.get i, ha i hi, hb i hi, (Word.get_apply g a b hi).symm⟩
  · intro h
    obtain ⟨a, ha⟩ := Row.exists_of_forall h
    obtain ⟨b, hb⟩ := Row.exists_of_forall ha
    refine ⟨a, fun i hi => (hb i hi).1, b, fun i hi => (hb i hi).2.1, ?_⟩
    apply Row.ext_get
    intro i hi
    rw [Word.get_apply g a b hi]
    exact (hb i hi).2.2

theorem Pattern.image_apply_subset {w : Nat} (g : Gate) (p q : Pattern w) :
    Set.image2 (Word.apply g) p.words q.words ⊆ (p.apply g q).words := by
  intro c hc i hi
  obtain ⟨a, b, ha, hb, hab⟩ := Pattern.mem_image_apply.1 hc i hi
  rw [Pattern.get_apply g p q hi, ← hab]
  exact g.allows_apply ha hb

theorem Pattern.image_apply_eq_iff {w : Nat} (g : Gate) (p q : Pattern w) :
    Set.image2 (Word.apply g) p.words q.words = (p.apply g q).words ↔
      ∀ i < w, g.Exact (p.get i) (q.get i) := by
  constructor
  · -- a bit that cannot be reached would show in some word of the result
    intro h i hi c hc
    rw [← Pattern.get_apply g p q hi] at hc
    obtain ⟨d, hd, rfl⟩ := Pattern.exists_mem_words hi hc
    rw [← h, Pattern.mem_image_apply] at hd
    exact hd i hi
  · intro h
    apply Set.Subset.antisymm (Pattern.image_apply_subset g p q)
    intro c hc
    rw [Pattern.mem_image_apply]
    intro i hi
    have hci := hc i hi
    rw [Pattern.get_apply g p q hi] at hci
    exact h i hi _ hci

theorem Pattern.image_not {w : Nat} (p : Pattern w) :
    (fun a : Word w => ~~~a) '' p.words = (~~~p).words := by
  ext c
  rw [Pattern.mem_words_not]
  constructor
  · rintro ⟨a, ha, rfl⟩
    rwa [Word.not_not]
  · intro hc
    exact ⟨~~~c, hc, Word.not_not c⟩

/-- Every operation keeps all words that can arise, and all but AND and NAND keep no others. -/
theorem Pattern.words_apply {w : Nat} (p q : Pattern w) :
    (∀ g, Set.image2 (Word.apply g) p.words q.words ⊆ (p.apply g q).words) ∧
      (fun a : Word w => ~~~a) '' p.words = (~~~p).words ∧
      (∀ g, g = .or ∨ g = .nor ∨ g = .xor ∨ g = .xnor →
        Set.image2 (Word.apply g) p.words q.words = (p.apply g q).words) ∧
      (∀ g, g = .and ∨ g = .nand →
        (Set.image2 (Word.apply g) p.words q.words = (p.apply g q).words ↔
          ∀ i < w, ¬(p.get i = .zero ∧ q.get i = .unknown) ∧
            ¬(p.get i = .unknown ∧ q.get i = .zero))) := by
  refine ⟨fun g => Pattern.image_apply_subset g p q, Pattern.image_not p, ?_, ?_⟩
  · intro g hg
    rw [Pattern.image_apply_eq_iff]
    intro i _
    rcases hg with rfl | rfl | rfl | rfl
    · exact Gate.exact_or _ _
    · exact Gate.exact_negated.2 (Gate.exact_or _ _)
    · exact Gate.exact_xor _ _
    · exact Gate.exact_negated.2 (Gate.exact_xor _ _)
  · intro g hg
    rw [Pattern.image_apply_eq_iff]
    refine forall₂_congr fun i _ => ?_
    rcases hg with rfl | rfl
    · exact Gate.exact_and
    · rw [← Gate.exact_and]
      exact Gate.exact_negated (g := .and)

end BitPattern
