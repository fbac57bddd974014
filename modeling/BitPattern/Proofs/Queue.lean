import Mathlib.Data.List.Perm.Subperm
import Mathlib.Data.List.ReduceOption

set_option autoImplicit false

namespace BitPattern

inductive Call where
  | next
  | nextBack
  | nth (n : Nat)
  | nthBack (n : Nat)
  deriving DecidableEq, Repr

def Call.mirrored : Call → Call
  | .next => .nextBack
  | .nextBack => .next
  | .nth n => .nthBack n
  | .nthBack n => .nth n

@[simp] theorem Call.mirrored_mirrored (c : Call) : c.mirrored.mirrored = c := by cases c <;> rfl

def runCalls {σ α : Type} (step : σ → Call → Option α × σ) :
    σ → List Call → List (Option α) × σ
  | s, [] => ([], s)
  | s, c :: cs =>
    let (x, s) := step s c
    let (xs, s) := runCalls step s cs
    (x :: xs, s)

theorem length_runCalls {σ α : Type} (step : σ → Call → Option α × σ) (s : σ)
    (cs : List Call) : (runCalls step s cs).1.length = cs.length := by
  induction cs generalizing s with
  | nil => rfl
  | cons c cs ih => exact congrArg (· + 1) (ih _)

theorem runCalls_map {σ α : Type} (step : σ → Call → Option α × σ) (f : Call → Call) (s : σ)
    (cs : List Call) : runCalls step s (cs.map f) = runCalls (fun s c => step s (f c)) s cs := by
  induction cs generalizing s with
  | nil => rfl
  | cons c cs ih => simp only [List.map_cons, runCalls, ih]

/-- Related states that answer every call alike and stay related answer all calls alike. -/
theorem runCalls_simulates {σ τ α β : Type} {step : σ → Call → Option α × σ}
    {spec : τ → Call → Option β × τ} {φ : β → α} {R : σ → τ → Prop}
    (h : ∀ s t c, R s t → (step s c).1 = (spec t c).1.map φ ∧ R (step s c).2 (spec t c).2)
    {s : σ} {t : τ} (hst : R s t) (cs : List Call) :
    (runCalls step s cs).1 = (runCalls spec t cs).1.map (Option.map φ) ∧
      R (runCalls step s cs).2 (runCalls spec t cs).2 := by
  induction cs generalizing s t with
  | nil => exact ⟨rfl, hst⟩
  | cons c cs ih =>
    obtain ⟨hanswer, hnext⟩ := h s t c hst
    obtain ⟨hanswers, hend⟩ := ih hnext
    simp only [runCalls, List.map_cons]
    exact ⟨by rw [hanswer, hanswers], hend⟩

def popFront {α : Type} : List α → Option α × List α
  | [] => (none, [])
  | x :: xs => (some x, xs)

def popBack {α : Type} (q : List α) : Option α × List α := (q.getLast?, q.dropLast)

/-- Dropping more than a queue holds empties it, and then there is nothing to take. -/
def queueStep {α : Type} (q : List α) : Call → Option α × List α
  | .next => popFront q
  | .nextBack => popBack q
  | .nth n => popFront (q.drop n)
  | .nthBack n => popBack (q.take (q.length - n))

theorem popFront_reverse {α : Type} (q : List α) :
    popFront q.reverse = ((popBack q).1, (popBack q).2.reverse) := by
  rcases q.eq_nil_or_concat with rfl | ⟨xs, x, rfl⟩
  · rfl
  · simp [popFront, popBack]

theorem popBack_reverse {α : Type} (q : List α) :
    popBack q.reverse = ((popFront q).1, (popFront q).2.reverse) := by
  cases q <;> simp [popFront, popBack]

/-- A queue turned around is one whose ends have changed places. -/
theorem queueStep_reverse {α : Type} (q : List α) (c : Call) :
    queueStep q.reverse c.mirrored = ((queueStep q c).1, (queueStep q c).2.reverse) := by
  cases c with
  | next => exact popBack_reverse q
  | nextBack => exact popFront_reverse q
  | nth n =>
    have hdrop : q.reverse.take (q.reverse.length - n) = (q.drop n).reverse := by
      rw [List.length_reverse, List.reverse_drop]
    exact (congrArg popBack hdrop).trans (popBack_reverse _)
  | nthBack n => exact (congrArg popFront List.drop_reverse).trans (popFront_reverse _)

theorem popFront_map {α β : Type} (f : α → β) (q : List α) :
    popFront (q.map f) = ((popFront q).1.map f, (popFront q).2.map f) := by
  cases q <;> rfl

theorem popBack_map {α β : Type} (f : α → β) (q : List α) :
    popBack (q.map f) = ((popBack q).1.map f, (popBack q).2.map f) := by
  simp [popBack]

theorem queueStep_map {α β : Type} (f : α → β) (q : List α) (c : Call) :
    queueStep (q.map f) c = ((queueStep q c).1.map f, (queueStep q c).2.map f) := by
  cases c with
  | next => exact popFront_map f q
  | nextBack => exact popBack_map f q
  | nth n => exact (congrArg popFront List.map_drop.symm).trans (popFront_map f _)
  | nthBack n =>
    have htake : (q.map f).take ((q.map f).length - n) = (q.take (q.length - n)).map f := by
      rw [List.length_map, List.map_take]
    exact (congrArg popBack htake).trans (popBack_map f _)

theorem popFront_perm {α : Type} (q : List α) :
    ((popFront q).1.toList ++ (popFront q).2).Perm q := by
  cases q <;> exact .refl _

theorem popBack_perm {α : Type} (q : List α) :
    ((popBack q).1.toList ++ (popBack q).2).Perm q := by
  rcases q.eq_nil_or_concat with rfl | ⟨xs, x, rfl⟩
  · exact .refl _
  · rw [List.concat_eq_append, popBack, List.getLast?_concat, List.dropLast_concat]
    exact List.perm_append_comm

theorem take_popBack {α : Type} (q : List α) (n : Nat) :
    (popBack q).2.take ((popBack q).2.length - n) = q.take (q.length - (n + 1)) := by
  rw [popBack, List.dropLast_eq_take, List.take_take, List.length_take]
  congr 1
  omega

theorem queueStep_subperm {α : Type} (q : List α) (c : Call) :
    ((queueStep q c).1.toList ++ (queueStep q c).2).Subperm q := by
  cases c with
  | next => exact (popFront_perm q).subperm
  | nextBack => exact (popBack_perm q).subperm
  | nth n => exact (popFront_perm _).subperm.trans (q.drop_sublist n).subperm
  | nthBack n => exact (popBack_perm _).subperm.trans (q.take_sublist _).subperm

theorem mem_of_queueStep {α : Type} {q : List α} {c : Call} {x : α}
    (h : (queueStep q c).1 = some x) : x ∈ q :=
  (queueStep_subperm q c).subset (by simp [h])

theorem popFront_eq_none {α : Type} {q : List α} (h : (popFront q).1 = none) : q = [] := by
  cases q with
  | nil => rfl
  | cons x xs => cases h

theorem popBack_eq_none {α : Type} {q : List α} (h : (popBack q).1 = none) : q = [] :=
  List.getLast?_eq_none_iff.1 h

theorem queueStep_eq_none {α : Type} {q : List α} {c : Call} (h : (queueStep q c).1 = none) :
    (queueStep q c).2 = [] := by
  cases c with
  | next =>
    rw [popFront_eq_none h]
    rfl
  | nextBack =>
    rw [popBack_eq_none h]
    rfl
  | nth n =>
    rw [queueStep, popFront_eq_none h]
    rfl
  | nthBack n =>
    rw [queueStep, popBack_eq_none h]
    rfl

theorem queueStep_nil {α : Type} (c : Call) : queueStep ([] : List α) c = (none, []) := by
  cases c <;> simp [queueStep, popFront, popBack]

theorem runCalls_nil {α : Type} (cs : List Call) :
    runCalls queueStep ([] : List α) cs = (List.replicate cs.length none, []) := by
  induction cs with
  | nil => rfl
  | cons c cs ih => simp [runCalls, queueStep_nil, ih, List.replicate_succ]

theorem reduceOption_cons {α : Type} (x : Option α) (xs : List (Option α)) :
    (x :: xs).reduceOption = x.toList ++ xs.reduceOption := by
  cases x <;> rfl

/-- What calls have taken and what is left were there from the start. -/
theorem runCalls_subperm {α : Type} (q : List α) (cs : List Call) :
    ((runCalls queueStep q cs).1.reduceOption ++ (runCalls queueStep q cs).2).Subperm q := by
  induction cs generalizing q with
  | nil => exact .refl _
  | cons c cs ih =>
    have hstep := queueStep_subperm q c
    simp only [runCalls, reduceOption_cons, List.append_assoc]
    exact ((List.subperm_append_left _).2 (ih (queueStep q c).2)).trans hstep

theorem runCalls_perm {α : Type} (q : List α) {cs : List Call}
    (h : ∀ c ∈ cs, c = .next ∨ c = .nextBack) :
    ((runCalls queueStep q cs).1.reduceOption ++ (runCalls queueStep q cs).2).Perm q := by
  induction cs generalizing q with
  | nil => exact .refl _
  | cons c cs ih =>
    have hstep : ((queueStep q c).1.toList ++ (queueStep q c).2).Perm q := by
      rcases h c (by simp) with rfl | rfl
      · exact popFront_perm q
      · exact popBack_perm q
    have hrest := ih (queueStep q c).2 fun d hd => h d (by simp [hd])
    simp only [runCalls, reduceOption_cons, List.append_assoc]
    exact (hrest.append_left _).trans hstep

theorem runCalls_pairwise {α : Type} (q : List α) (cs : List Call) :
    (runCalls queueStep q cs).1.Pairwise fun x y => x = none → y = none := by
  induction cs generalizing q with
  | nil => exact .nil
  | cons c cs ih =>
    rw [runCalls, List.pairwise_cons]
    refine ⟨?_, ih _⟩
    intro y hy hx
    rw [queueStep_eq_none hx, runCalls_nil] at hy
    exact List.eq_of_mem_replicate hy

theorem runCalls_none_mem {α : Type} {q : List α} {cs : List Call}
    (h : none ∈ (runCalls queueStep q cs).1) : (runCalls queueStep q cs).2 = [] := by
  induction cs generalizing q with
  | nil => simp [runCalls] at h
  | cons c cs ih =>
    simp only [runCalls, List.mem_cons] at h ⊢
    rcases h with h | h
    · rw [queueStep_eq_none h.symm, runCalls_nil]
    · exact ih h

theorem runCalls_none_of_lt {α : Type} {q : List α} {cs : List Call} (h : q.length < cs.length) :
    none ∈ (runCalls queueStep q cs).1 := by
  have hsub := (runCalls_subperm q cs).length_le
  rw [List.length_append] at hsub
  rw [← List.reduceOption_length_lt_iff, length_runCalls]
  omega

end BitPattern
