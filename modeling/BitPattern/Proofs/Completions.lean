import BitPattern.Pattern.Completions
import BitPattern.Proofs.Completion
import BitPattern.Proofs.Count
import BitPattern.Proofs.Queue
import Mathlib.Data.List.Nodup

/-!
The walk over a pattern's completions against the queue of their indices. A walk that goes on
holds the indices between its ends, which lie in order below the number of completions, and one
that is over holds none.
-/

set_option autoImplicit false

namespace BitPattern

def Completions.call {w : Nat} (c : Completions w) : Call → Option (Word w) × Completions w
  | .next => c.next
  | .nextBack => c.nextBack
  | .nth n => c.nth n
  | .nthBack n => c.nthBack n

def Pattern.indices {w : Nat} (p : Pattern w) : List Nat :=
  List.range (twoPow (min p.unknownCount 128))

/-- A walk over `p` that has the indices of a queue still to come. -/
inductive Pattern.Visits {w : Nat} (p : Pattern w) : Completions w → List Nat → Prop where
  | ended (front back : Nat) : p.Visits ⟨p, front, back, true⟩ []
  | going {front back : Nat} (hle : front ≤ back)
      (hlt : back < twoPow (min p.unknownCount 128)) :
      p.Visits ⟨p, front, back, false⟩ (List.range' front (back + 1 - front))

def Pattern.Agrees {w : Nat} (p : Pattern w) (out : Option (Word w) × Completions w)
    (taken : Option Nat × List Nat) : Prop :=
  out.1 = taken.1.map p.fill ∧ p.Visits out.2 taken.2

theorem addCount_of_lt {m n b k : Nat} (h : m + n ≤ b) (hb : b < twoPow (min k 128)) :
    addCount m n = m + n := by
  have hk : twoPow (min k 128) ≤ twoPow 128 :=
    Nat.pow_le_pow_right Nat.two_pos (Nat.min_le_right k 128)
  have hlimit := countLimit_add_one
  rw [addCount]
  omega

theorem range'_eq_cons {front back : Nat} (h : front ≤ back) :
    List.range' front (back + 1 - front) =
      front :: List.range' (front + 1) (back + 1 - (front + 1)) := by
  rw [show back + 1 - front = back + 1 - (front + 1) + 1 by omega, List.range'_succ]

theorem range'_eq_concat {front back : Nat} (h : front ≤ back) :
    List.range' front (back + 1 - front) = List.range' front (back - front) ++ [back] := by
  rw [show back + 1 - front = back - front + 1 by omega, List.range'_1_concat,
    show front + (back - front) = back by omega]

theorem Pattern.Visits.next {w : Nat} {p : Pattern w} {c : Completions w} {q : List Nat}
    (h : p.Visits c q) : p.Agrees c.next (popFront q) := by
  cases h with
  | ended => exact ⟨rfl, .ended _ _⟩
  | @going front back hle hlt =>
    rw [range'_eq_cons hle]
    rcases Nat.eq_or_lt_of_le hle with rfl | hne
    · simp only [Completions.next, Nat.sub_self, List.range'_zero]
      exact ⟨rfl, .ended _ _⟩
    · have hadd : addCount front 1 = front + 1 := addCount_of_lt hne hlt
      simp only [Completions.next, Bool.false_eq_true, if_false, Nat.ne_of_lt hne, hadd]
      exact ⟨rfl, .going hne hlt⟩

theorem Pattern.Visits.nextBack {w : Nat} {p : Pattern w} {c : Completions w} {q : List Nat}
    (h : p.Visits c q) : p.Agrees c.nextBack (popBack q) := by
  cases h with
  | ended => exact ⟨rfl, .ended _ _⟩
  | @going front back hle hlt =>
    rw [range'_eq_concat hle, popBack, List.getLast?_concat, List.dropLast_concat]
    rcases Nat.eq_or_lt_of_le hle with rfl | hne
    · simp only [Completions.nextBack, Nat.sub_self, List.range'_zero]
      exact ⟨rfl, .ended _ _⟩
    · simp only [Completions.nextBack, Bool.false_eq_true, if_false, Nat.ne_of_lt hne]
      rw [show back - front = back - 1 + 1 - front by omega]
      exact ⟨rfl, .going (by omega) (by omega)⟩

theorem Pattern.Visits.nth {w : Nat} {p : Pattern w} {c : Completions w} {q : List Nat}
    (h : p.Visits c q) (n : Nat) : p.Agrees (c.nth n) (popFront (q.drop n)) := by
  cases h with
  | ended =>
    rw [List.drop_nil]
    exact ⟨rfl, .ended _ _⟩
  | @going front back hle hlt =>
    by_cases hn : back - front < n
    · rw [List.drop_of_length_le (by rw [List.length_range']; omega)]
      simp only [Completions.nth, Bool.false_eq_true, if_false, if_pos hn]
      exact ⟨rfl, .ended _ _⟩
    · have hadd : addCount front n = front + n := addCount_of_lt (by omega) hlt
      rw [List.drop_range', Nat.mul_one,
        show back + 1 - front - n = back + 1 - (front + n) by omega]
      simp only [Completions.nth, Bool.false_eq_true, if_false, if_neg hn, hadd]
      exact (Pattern.Visits.going (by omega) hlt).next

theorem Pattern.Visits.nthBack {w : Nat} {p : Pattern w} {c : Completions w} {q : List Nat}
    (h : p.Visits c q) (n : Nat) : p.Agrees (c.nthBack n) (popBack (q.take (q.length - n))) := by
  induction n generalizing c q with
  | zero =>
    rw [Nat.sub_zero, List.take_length]
    exact h.nextBack
  | succ n ih =>
    obtain ⟨hanswer, hnext⟩ := h.nextBack
    rw [Completions.nthBack]
    generalize c.nextBack = out at hanswer hnext
    obtain ⟨x, c⟩ := out
    cases x with
    | none =>
      have hq : q = [] := popBack_eq_none (Option.map_eq_none_iff.1 hanswer.symm)
      subst hq
      rw [List.take_nil]
      exact ⟨rfl, hnext⟩
    | some a =>
      have hrest := ih hnext
      rwa [take_popBack] at hrest

theorem Pattern.Visits.call {w : Nat} {p : Pattern w} {c : Completions w} {q : List Nat}
    (h : p.Visits c q) (x : Call) : p.Agrees (c.call x) (queueStep q x) := by
  cases x with
  | next => exact h.next
  | nextBack => exact h.nextBack
  | nth n => exact h.nth n
  | nthBack n => exact h.nthBack n

theorem Pattern.completions_eq {w : Nat} (p : Pattern w) :
    p.completions = ⟨⟨p, 0, twoPow (min p.unknownCount 128) - 1, false⟩, []⟩ := by
  rw [Pattern.completions]
  by_cases hu : 128 ≤ p.unknownCount
  · rw [if_pos hu, Nat.min_eq_right hu]
    rfl
  · rw [if_neg hu, Nat.min_eq_left (by omega), Pattern.completionCount_of_lt (by omega)]
    rfl

theorem Pattern.visits_completions {w : Nat} (p : Pattern w) :
    p.Visits p.completions.value p.indices := by
  have hpos : 0 < twoPow (min p.unknownCount 128) := Nat.two_pow_pos _
  rw [p.completions_eq, Pattern.indices, List.range_eq_range']
  have h := Pattern.Visits.going (p := p) (Nat.zero_le (twoPow (min p.unknownCount 128) - 1))
    (by omega)
  rwa [Nat.sub_add_cancel hpos, Nat.sub_zero] at h

def Pattern.answers {w : Nat} (p : Pattern w) (calls : List Call) : List (Option (Word w)) :=
  (runCalls Completions.call p.completions.value calls).1

def Pattern.taken {w : Nat} (p : Pattern w) (calls : List Call) : List (Option Nat) :=
  (runCalls queueStep p.indices calls).1

theorem Pattern.answers_eq {w : Nat} (p : Pattern w) (calls : List Call) :
    p.answers calls = (p.taken calls).map (Option.map p.fill) :=
  (runCalls_simulates (fun _ _ c h => h.call c) p.visits_completions calls).1

theorem Pattern.reduceOption_answers {w : Nat} (p : Pattern w) (calls : List Call) :
    (p.answers calls).reduceOption = (p.taken calls).reduceOption.map p.fill := by
  rw [p.answers_eq, List.reduceOption_map]

theorem Pattern.none_mem_answers {w : Nat} {p : Pattern w} {calls : List Call} :
    none ∈ p.answers calls ↔ none ∈ p.taken calls := by
  simp [p.answers_eq]

theorem Pattern.length_indices {w : Nat} (p : Pattern w) :
    p.indices.length = twoPow (min p.unknownCount 128) :=
  List.length_range

theorem Pattern.length_indices_of_le {w : Nat} {p : Pattern w} (h : p.unknownCount ≤ 127) :
    p.indices.length = p.completionCount.value := by
  have hlimit := countLimit_add_one
  have hlt : twoPow p.unknownCount < twoPow 128 :=
    Nat.pow_lt_pow_right Nat.one_lt_two (by omega)
  rw [p.length_indices, p.value_completionCount, Nat.min_eq_left (by omega),
    Nat.min_eq_left (by omega)]

/-- The count is cut off one short of all indices. -/
theorem Pattern.length_indices_of_ge {w : Nat} {p : Pattern w} (h : 128 ≤ p.unknownCount) :
    p.indices.length = twoPow 128 ∧ p.indices.length = p.completionCount.value + 1 := by
  have hlimit := countLimit_add_one
  have hle : twoPow 128 ≤ twoPow p.unknownCount := Nat.pow_le_pow_right Nat.two_pos h
  rw [p.length_indices, p.value_completionCount, Nat.min_eq_right h, Nat.min_eq_right (by omega)]
  exact ⟨rfl, hlimit.symm⟩

theorem Pattern.lt_of_mem_indices {w : Nat} {p : Pattern w} {k : Nat} (h : k ∈ p.indices) :
    k < twoPow p.unknownCount :=
  Nat.lt_of_lt_of_le (List.mem_range.1 h) 
    (Nat.pow_le_pow_right Nat.two_pos (Nat.min_le_left _ _))

theorem Pattern.value_completion_of_mem {w : Nat} {p : Pattern w} {k : Nat}
    (h : k ∈ p.indices) : (p.completion k).value = .ok (p.fill k) :=
  Pattern.value_completion_eq_ok.2 ⟨Pattern.lt_of_mem_indices h, rfl⟩

theorem Pattern.taken_subperm {w : Nat} (p : Pattern w) (calls : List Call) :
    (p.taken calls).reduceOption.Subperm p.indices :=
  (List.sublist_append_left _ _).subperm.trans (runCalls_subperm p.indices calls)

theorem Pattern.mem_indices_of_taken {w : Nat} {p : Pattern w} {calls : List Call} {k : Nat}
    (h : some k ∈ p.taken calls) : k ∈ p.indices :=
  (p.taken_subperm calls).subset (List.reduceOption_mem_iff.2 h)

theorem Pattern.map_ok_answers {w : Nat} (p : Pattern w) (calls : List Call) :
    (p.answers calls).map (Option.map Except.ok) =
      (p.taken calls).map (Option.map fun k => (p.completion k).value) := by
  rw [p.answers_eq, List.map_map]
  refine List.map_congr_left fun x hx => ?_
  cases x with
  | none => rfl
  | some k =>
    have hk := Pattern.value_completion_of_mem (Pattern.mem_indices_of_taken hx)
    exact congrArg some hk.symm

theorem Pattern.nodup_answers {w : Nat} (p : Pattern w) (calls : List Call) :
    (p.answers calls).reduceOption.Nodup := by
  obtain ⟨ks, hperm, hsub⟩ := p.taken_subperm calls
  have hnodup : (p.taken calls).reduceOption.Nodup :=
    hperm.nodup_iff.1 (List.nodup_range.sublist hsub)
  rw [p.reduceOption_answers]
  refine hnodup.map_on fun j hj k hk h => ?_
  have hj := (p.taken_subperm calls).subset hj
  have hk := (p.taken_subperm calls).subset hk
  exact p.injOn_fill (Pattern.lt_of_mem_indices hj) (Pattern.lt_of_mem_indices hk) h

theorem Pattern.answers_pairwise {w : Nat} (p : Pattern w) (calls : List Call) :
    (p.answers calls).Pairwise fun x y => x = none → y = none := by
  rw [p.answers_eq, List.pairwise_map]
  refine (runCalls_pairwise p.indices calls).imp fun h hx => ?_
  rw [h (Option.map_eq_none_iff.1 hx)]
  rfl

theorem Pattern.answers_perm {w : Nat} {p : Pattern w} {calls : List Call}
    (h : ∀ c ∈ calls, c = .next ∨ c = .nextBack) (hend : none ∈ p.answers calls) :
    (p.answers calls).reduceOption.Perm (p.indices.map p.fill) := by
  rw [Pattern.none_mem_answers] at hend
  have hperm := runCalls_perm p.indices h
  rw [runCalls_none_mem hend, List.append_nil] at hperm
  rw [p.reduceOption_answers]
  exact hperm.map p.fill

/-- A walk answers as the queue of all indices does, each index as its completion. So nothing is
given twice, an end is final and is reached, and taking one at a time from the two ends in any
order gives everything: as many as the count of completions says, or one more where it is cut
off. -/
theorem Pattern.completions_eq_queue {w : Nat} (p : Pattern w) (calls : List Call) :
    (p.answers calls).map (Option.map Except.ok) =
        (p.taken calls).map (Option.map fun k => (p.completion k).value) ∧
      (p.answers calls).reduceOption.Nodup ∧
      ((p.answers calls).Pairwise fun x y => x = none → y = none) ∧
      (twoPow (min p.unknownCount 128) < calls.length → none ∈ p.answers calls) ∧
      ((∀ c ∈ calls, c = .next ∨ c = .nextBack) → none ∈ p.answers calls →
        ((p.answers calls).reduceOption.map Except.ok).Perm
            (p.indices.map fun k => (p.completion k).value) ∧
          (p.unknownCount ≤ 127 →
            (p.answers calls).reduceOption.length = p.completionCount.value) ∧
          (128 ≤ p.unknownCount →
            (p.answers calls).reduceOption.length = twoPow 128 ∧
              (p.answers calls).reduceOption.length = p.completionCount.value + 1)) := by
  refine ⟨p.map_ok_answers calls, p.nodup_answers calls, p.answers_pairwise calls, ?_, ?_⟩
  · intro h
    rw [Pattern.none_mem_answers]
    exact runCalls_none_of_lt (by rwa [p.length_indices])
  · intro hcalls hend
    have hperm := Pattern.answers_perm hcalls hend
    have hlength : (p.answers calls).reduceOption.length = p.indices.length := by
      rw [hperm.length_eq, List.length_map]
    have hok : (p.indices.map p.fill).map Except.ok =
        p.indices.map fun k => (p.completion k).value := by
      rw [List.map_map]
      exact List.map_congr_left fun k hk => (Pattern.value_completion_of_mem hk).symm
    rw [hlength, ← hok]
    exact ⟨hperm.map Except.ok, Pattern.length_indices_of_le, Pattern.length_indices_of_ge⟩

example :
    let p : Pattern 3 := ⟨[.unknown, .zero, .unknown], rfl⟩
    (p.answers [.nthBack 1, .next, .nth 1, .nextBack]).map (Option.map Word.toNat) =
      [some 4, some 0, none, none] := by decide

end BitPattern
