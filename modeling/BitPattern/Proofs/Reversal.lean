import BitPattern.Proofs.Completions

/-!
Negation turns the numbering of completions around: with up to 128 unknown bits, the completions of
a negated pattern are the complements of the pattern's own, last to first. For one completion this
is turning the digits of its index. A walk over the negated pattern then answers as a walk over the
pattern does when every call goes to its other end.
-/

set_option autoImplicit false

namespace BitPattern

theorem Trit.isUnknown_not (t : Trit) : t.not.isUnknown = t.isUnknown := by cases t <;> rfl

theorem Pattern.unknownCount_not {w : Nat} (p : Pattern w) :
    (~~~p).unknownCount = p.unknownCount := by
  have hcount : (p.toList.map Trit.not).countP Trit.isUnknown = p.toList.countP Trit.isUnknown := by
    simp [List.countP_map, Function.comp_def, Trit.isUnknown_not]
  exact hcount

/-- The number of the completion as far from the other end. -/
def Pattern.opposite {w : Nat} (p : Pattern w) (k : Nat) : Nat := twoPow p.unknownCount - 1 - k

theorem Pattern.opposite_lt {w : Nat} (p : Pattern w) (k : Nat) :
    p.opposite k < twoPow p.unknownCount := by
  have hpos : 0 < twoPow p.unknownCount := Nat.two_pow_pos _
  unfold Pattern.opposite
  omega

theorem Pattern.opposite_opposite {w k : Nat} {p : Pattern w} (h : k < twoPow p.unknownCount) :
    p.opposite (p.opposite k) = k := by
  unfold Pattern.opposite
  omega

/-- The lowest digit of the opposite index is the turned one, and the others are those of the
opposite of the others. -/
theorem fillBits_not {ts : List Trit} {k : Nat} (h : k < twoPow (ts.countP Trit.isUnknown)) :
    fillBits (ts.map Trit.not) (twoPow (ts.countP Trit.isUnknown) - 1 - k) =
      (fillBits ts k).map (!·) := by
  induction ts generalizing k with
  | nil => rfl
  | cons t ts ih =>
    cases t with
    | zero =>
      rw [List.countP_cons_of_neg (by decide)] at h ⊢
      exact congrArg (true :: ·) (ih h)
    | one =>
      rw [List.countP_cons_of_neg (by decide)] at h ⊢
      exact congrArg (false :: ·) (ih h)
    | unknown =>
      rw [List.countP_cons_of_pos rfl, twoPow_succ] at h ⊢
      generalize twoPow (ts.countP Trit.isUnknown) = n at h ih ⊢
      have hdigit : ((2 * n - 1 - k) % 2 == 1) = !(k % 2 == 1) := by
        rw [show (2 * n - 1 - k) % 2 = 1 - k % 2 by omega]
        rcases Nat.mod_two_eq_zero_or_one k with h0 | h1
        · rw [h0]; rfl
        · rw [h1]; rfl
      have hrest : (2 * n - 1 - k) / 2 = n - 1 - k / 2 := by omega
      simp only [List.map_cons, Trit.not, fillBits, hdigit, hrest, ih (show k / 2 < n by omega)]

theorem Pattern.fill_opposite {w k : Nat} {p : Pattern w} (h : k < twoPow p.unknownCount) :
    (~~~p).fill (p.opposite k) = ~~~(p.fill k) := by
  have hbits := fillBits_not h
  exact Row.ext_get fun i _ => congrArg (·.getD i default) hbits

/-- Walks over the pattern and over its negation with opposite indices still to come, in the
opposite order. -/
def Pattern.Opposed {w : Nat} (p : Pattern w) (c d : Completions w) : Prop :=
  ∃ q, p.Visits c q ∧ (~~~p).Visits d (q.reverse.map p.opposite)

theorem Pattern.Visits.lt_of_mem {w k : Nat} {p : Pattern w} {c : Completions w} {q : List Nat}
    (h : p.Visits c q) (hk : k ∈ q) : k < twoPow p.unknownCount := by
  cases h with
  | ended => cases hk
  | going hle hlt =>
    have hpow : twoPow (min p.unknownCount 128) ≤ twoPow p.unknownCount :=
      Nat.pow_le_pow_right Nat.two_pos (Nat.min_le_left _ _)
    rw [List.mem_range'_1] at hk
    omega

theorem Pattern.Opposed.call {w : Nat} {p : Pattern w} {c d : Completions w} (h : p.Opposed c d)
    (x : Call) : (d.call x).1 = (c.call x.mirrored).1.map (~~~·) ∧
      p.Opposed (c.call x.mirrored).2 (d.call x).2 := by
  obtain ⟨q, hc, hd⟩ := h
  have hstep : queueStep (q.reverse.map p.opposite) x =
      ((queueStep q x.mirrored).1.map p.opposite,
        (queueStep q x.mirrored).2.reverse.map p.opposite) := by
    have hreverse := queueStep_reverse q x.mirrored
    rw [Call.mirrored_mirrored] at hreverse
    rw [queueStep_map, hreverse]
  obtain ⟨hcanswer, hcnext⟩ := hc.call x.mirrored
  obtain ⟨hdanswer, hdnext⟩ := hd.call x
  rw [hstep] at hdanswer hdnext
  refine ⟨?_, _, hcnext, hdnext⟩
  rw [hdanswer, hcanswer]
  cases hk : (queueStep q x.mirrored).1 with
  | none => rfl
  | some k => exact congrArg some (Pattern.fill_opposite (hc.lt_of_mem (mem_of_queueStep hk)))

theorem Pattern.indices_not {w : Nat} (p : Pattern w) : (~~~p).indices = p.indices := by
  rw [Pattern.indices, p.unknownCount_not, Pattern.indices]

theorem Pattern.reverse_indices {w : Nat} {p : Pattern w} (h : p.unknownCount ≤ 128) :
    p.indices.reverse = p.indices.map p.opposite := by
  have hrange := @List.reverse_range' 0 (twoPow p.unknownCount)
  rw [Nat.zero_add, ← List.range_eq_range'] at hrange
  rw [Pattern.indices, Nat.min_eq_left h]
  exact hrange

theorem Pattern.opposed_completions {w : Nat} {p : Pattern w} (h : p.unknownCount ≤ 128) :
    p.Opposed p.completions.value (~~~p).completions.value := by
  have hindices : p.indices.reverse.map p.opposite = (~~~p).indices := by
    rw [Pattern.reverse_indices h, List.map_map, p.indices_not]
    have hback : ∀ k ∈ p.indices, (p.opposite ∘ p.opposite) k = id k :=
      fun k hk => Pattern.opposite_opposite (Pattern.lt_of_mem_indices hk)
    rw [List.map_congr_left hback, List.map_id]
  refine ⟨p.indices, p.visits_completions, ?_⟩
  rw [hindices]
  exact (~~~p).visits_completions

theorem Completions.collect_simulates {w : Nat}
    {step spec : Completions w → Option (Word w) × Completions w} {φ : Word w → Word w}
    {R : Completions w → Completions w → Prop}
    (h : ∀ c d, R c d → (step c).1 = (spec d).1.map φ ∧ R (step c).2 (spec d).2)
    {c d : Completions w} (hcd : R c d) (n : Nat) :
    (collect step n c).1 = (collect spec n d).1.map φ := by
  induction n generalizing c d with
  | zero => rfl
  | succ n ih =>
    obtain ⟨hanswer, hnext⟩ := h c d hcd
    rw [collect, collect]
    generalize step c = out at hanswer hnext
    generalize spec d = out' at hanswer hnext
    obtain ⟨x, c⟩ := out
    obtain ⟨y, d⟩ := out'
    cases y with
    | none =>
      cases hanswer
      rfl
    | some a =>
      cases hanswer
      exact congrArg (φ a :: ·) (ih hnext)

theorem Pattern.answers_not {w : Nat} {p : Pattern w} (h : p.unknownCount ≤ 128)
    (calls : List Call) :
    (~~~p).answers calls = (p.answers (calls.map Call.mirrored)).map (Option.map (~~~·)) := by
  have hopposed := Pattern.opposed_completions h
  have hrun := runCalls_simulates (R := fun d c => p.Opposed c d)
    (fun _ _ x hcd => hcd.call x) hopposed calls
  rw [Pattern.answers, Pattern.answers, runCalls_map]
  exact hrun.1

theorem Pattern.take_completions_not {w : Nat} {p : Pattern w} (h : p.unknownCount ≤ 128)
    (n : Nat) :
    ((~~~p).completions.value.take n).1 = (p.completions.value.takeBack n).1.map (~~~·) :=
  Completions.collect_simulates (R := fun d c => p.Opposed c d)
    (fun _ _ hcd => hcd.call .next) (Pattern.opposed_completions h) n

/-- With up to 128 unknown bits, the completions of the negation are the complements of the
completions, numbered from the other end. So taken from the front they are the complements of the
completions taken from the back, and whatever calls are made to a walk over them, the same calls to
the other end of a walk over the completions are answered with the complements. -/
theorem Pattern.completions_not {w : Nat} (p : Pattern w) (h : p.unknownCount ≤ 128) :
    (∀ k < twoPow p.unknownCount, ∃ a,
        (p.completion (twoPow p.unknownCount - 1 - k)).value = .ok a ∧
          ((~~~p).completion k).value = .ok (~~~a)) ∧
      (∀ n, ((~~~p).completions.value.take n).1 =
        (p.completions.value.takeBack n).1.map (~~~·)) ∧
      ∀ calls, (~~~p).answers calls =
        (p.answers (calls.map Call.mirrored)).map (Option.map (~~~·)) := by
  refine ⟨?_, Pattern.take_completions_not h, Pattern.answers_not h⟩
  intro k hk
  have hfill := Pattern.fill_opposite (p.opposite_lt k)
  rw [Pattern.opposite_opposite hk] at hfill
  refine ⟨_, Pattern.value_completion_eq_ok.2 ⟨p.opposite_lt k, rfl⟩, ?_⟩
  exact Pattern.value_completion_eq_ok.2 ⟨by rwa [p.unknownCount_not], hfill⟩

set_option maxRecDepth 1000 in
theorem Pattern.completions_not_widest :
    let p : Pattern 130 := ⟨[.one, .zero] ++ List.replicate 128 .unknown, rfl⟩
    p.unknownCount ≤ 128 ∧
      (∀ k < twoPow p.unknownCount, ∃ a,
        (p.completion (twoPow p.unknownCount - 1 - k)).value = .ok a ∧
          ((~~~p).completion k).value = .ok (~~~a)) ∧
      (∀ n, ((~~~p).completions.value.take n).1 =
        (p.completions.value.takeBack n).1.map (~~~·)) ∧
      ∀ calls, (~~~p).answers calls =
        (p.answers (calls.map Call.mirrored)).map (Option.map (~~~·)) := by
  intro p
  have h : p.unknownCount ≤ 128 := by decide
  exact ⟨h, Pattern.completions_not p h⟩

end BitPattern
