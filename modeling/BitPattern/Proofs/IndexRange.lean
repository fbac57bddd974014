import BitPattern.Proofs.Completions

set_option autoImplicit false

namespace BitPattern

def Pattern.walk {w : Nat} (p : Pattern w) (calls : List Call) :
    Logged (List (Option (Word w)) × Completions w) := do
  let c ← p.completions
  return runCalls Completions.call c calls

theorem Pattern.events_walk {w : Nat} (p : Pattern w) (calls : List Call) :
    (p.walk calls).events = [] := by
  rw [Pattern.walk, Logged.events_bind, Logged.events_pure, p.completions_eq, List.append_nil]

theorem Pattern.completion_of_out_of_range {w k : Nat} {p : Pattern w} (hk : k ≤ countLimit)
    (h : ¬k < twoPow p.unknownCount) :
    p.completion k = ⟨.error (.outOfRange k (twoPow p.unknownCount)), []⟩ := by
  have hfew : p.unknownCount < 128 := by
    by_contra hmany
    exact h (lt_twoPow_of_le_countLimit hk (Nat.le_of_not_lt hmany))
  rw [Pattern.completion_of_not_lt h, Pattern.completionCount_of_lt hfew]
  rfl

/-- An index has a completion exactly when it is below the number of completions, and so always from
128 unknown bits on. Any other index is refused with the exact number. Neither this nor a walk over
all completions ever reports that a count was cut off. -/
theorem Pattern.completion_range {w k : Nat} (p : Pattern w) (hk : k ≤ countLimit) :
    ((∃ a, (p.completion k).value = .ok a) ↔ k < twoPow p.unknownCount) ∧
      (128 ≤ p.unknownCount → ∃ a, (p.completion k).value = .ok a) ∧
      (¬k < twoPow p.unknownCount →
        (p.completion k).value = .error (.outOfRange k (twoPow p.unknownCount))) ∧
      (p.completion k).events = [] ∧ ∀ calls, (p.walk calls).events = [] := by
  refine ⟨?_, ?_, ?_, ?_, p.events_walk⟩
  · simp [Pattern.value_completion_eq_ok]
  · intro hmany
    rw [Pattern.completion_of_lt (lt_twoPow_of_le_countLimit hk hmany)]
    exact ⟨_, rfl⟩
  · intro h
    rw [Pattern.completion_of_out_of_range hk h]
  · by_cases h : k < twoPow p.unknownCount
    · rw [Pattern.completion_of_lt h]
    · rw [Pattern.completion_of_out_of_range hk h]

theorem Pattern.completion_range_last :
    let p : Pattern 127 := .free
    twoPow 127 ≤ countLimit ∧
      (p.completion (twoPow 127)).value = .error (.outOfRange (twoPow 127) (twoPow 127)) ∧
      (p.completion (twoPow 127)).events = [] := by
  intro p
  have hk : twoPow 127 ≤ countLimit := by decide
  have hunknown : p.unknownCount = 127 := List.countP_replicate
  obtain ⟨-, -, hout, hevents, -⟩ := Pattern.completion_range p hk
  rw [hunknown] at hout
  exact ⟨hk, hout (Nat.lt_irrefl _), hevents⟩

end BitPattern
