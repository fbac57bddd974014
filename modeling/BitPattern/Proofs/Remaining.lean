import BitPattern.Proofs.Completions

/-!
The number of completions still to come. Whatever calls came before, a walk gives exactly the
completions of the indices it still has to visit, one at a time from the front, and the bounds it
names are their number where that can be named. The number is taken from the two ends, which lie in
order until the walk is over and mean nothing after that.
-/

set_option autoImplicit false

namespace BitPattern

/-- Taking one at a time from the front gives these words, and then there is nothing more. -/
inductive Completions.Drains {w : Nat} : Completions w → List (Word w) → Prop where
  | stop {c : Completions w} (hnone : c.next.1 = none) : Drains c []
  | give {c : Completions w} {a : Word w} {as : List (Word w)} (hsome : c.next.1 = some a)
      (hrest : Drains c.next.2 as) : Drains c (a :: as)

theorem Completions.Drains.unique {w : Nat} {c : Completions w} {as bs : List (Word w)}
    (ha : c.Drains as) (hb : c.Drains bs) : as = bs := by
  induction ha generalizing bs with
  | stop hnone =>
    cases hb with
    | stop => rfl
    | give hsome => cases hnone.symm.trans hsome
  | give hsome _ ih =>
    cases hb with
    | stop hnone => cases hnone.symm.trans hsome
    | give hsome' hrest =>
      cases hsome.symm.trans hsome'
      rw [ih hrest]

theorem Pattern.Visits.drains {w : Nat} {p : Pattern w} {c : Completions w} {q : List Nat}
    (h : p.Visits c q) : c.Drains (q.map p.fill) := by
  induction q generalizing c with
  | nil => exact .stop h.next.1
  | cons k q ih => exact .give h.next.1 (ih h.next.2)

theorem Pattern.Visits.drains_iff {w : Nat} {p : Pattern w} {c : Completions w} {q : List Nat}
    (h : p.Visits c q) {as : List (Word w)} : c.Drains as ↔ as = q.map p.fill := by
  constructor
  · intro ha
    exact ha.unique h.drains
  · rintro rfl
    exact h.drains

theorem Pattern.Visits.remaining {w : Nat} {p : Pattern w} {c : Completions w} {q : List Nat}
    (h : p.Visits c q) : c.remaining = within? countLimit q.length := by
  cases h with
  | ended => rfl
  | @going front back hle hlt =>
    have hlength : back - front + 1 = back + 1 - front := by omega
    simp only [Completions.remaining, Bool.false_eq_true, if_false, subtract?, if_pos hle,
      Option.bind_some, add?, List.length_range', hlength]

theorem Pattern.Visits.sizeHint {w : Nat} {p : Pattern w} {c : Completions w} {q : List Nat}
    (h : p.Visits c q) : c.sizeHint =
      if q.length ≤ lengthLimit then (q.length, some q.length) else (lengthLimit, none) := by
  have hlimits : lengthLimit ≤ countLimit := by decide
  rw [Completions.sizeHint, h.remaining, within?_bind_within? hlimits, within?]
  by_cases hlength : q.length ≤ lengthLimit
  · rw [if_pos hlength, if_pos hlength, Option.getD_some]
  · rw [if_neg hlength, if_neg hlength, Option.getD_none]

def Pattern.reached {w : Nat} (p : Pattern w) (calls : List Call) : Completions w :=
  (runCalls Completions.call p.completions.value calls).2

def Pattern.left {w : Nat} (p : Pattern w) (calls : List Call) : List Nat :=
  (runCalls queueStep p.indices calls).2

theorem Pattern.visits_reached {w : Nat} (p : Pattern w) (calls : List Call) :
    p.Visits (p.reached calls) (p.left calls) :=
  (runCalls_simulates (fun _ _ c h => h.call c) p.visits_completions calls).2

/-- After any calls a walk gives a definite list of completions before it ends, and names its length
on both sides, or only the largest length from below where the list is longer. A new walk has as
many to give as there are indices. -/
theorem Pattern.sizeHint_exact {w : Nat} (p : Pattern w) (calls : List Call) :
    ∃ as : List (Word w), (∀ bs, (p.reached calls).Drains bs ↔ bs = as) ∧
      (calls = [] → as.length = twoPow (min p.unknownCount 128)) ∧
      (p.reached calls).sizeHint =
        if as.length ≤ twoPow 64 - 1 then (as.length, some as.length)
        else (twoPow 64 - 1, none) := by
  have h := p.visits_reached calls
  refine ⟨(p.left calls).map p.fill, fun bs => h.drains_iff, ?_, ?_⟩
  · rintro rfl
    rw [List.length_map]
    exact p.length_indices
  · rw [List.length_map]
    exact h.sizeHint

example :
    let p : Pattern 3 := ⟨[.unknown, .zero, .unknown], rfl⟩
    (p.reached [.next, .nextBack]).sizeHint = (2, some 2) ∧
      (p.reached [.next, .nth 3]).sizeHint = (0, some 0) := by decide

end BitPattern
