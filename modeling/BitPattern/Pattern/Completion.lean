import BitPattern.Count
import BitPattern.Pattern

/-!
The completions of a pattern, by number: the binary digits of the index, the least significant
first, go to the unknown positions, the lowest first.
-/

set_option autoImplicit false

namespace BitPattern

/-- Hands the binary digits of `k` to the unknown bits in turn. -/
def fillBits : List Trit → Nat → List Bool
  | [], _ => []
  | .zero :: ts, k => false :: fillBits ts k
  | .one :: ts, k => true :: fillBits ts k
  | .unknown :: ts, k => (k % 2 == 1) :: fillBits ts (k / 2)

@[simp] theorem length_fillBits (ts : List Trit) (k : Nat) :
    (fillBits ts k).length = ts.length := by
  induction ts generalizing k with
  | nil => rfl
  | cons t ts ih => cases t <;> simp [fillBits, ih]

/-- The word of index `k`, whose digits past the last unknown bit are ignored. -/
def Pattern.fill {w : Nat} (p : Pattern w) (k : Nat) : Word w :=
  ⟨fillBits p.toList k, by simp [p.length_toList]⟩

def Pattern.completionCount {w : Nat} (p : Pattern w) : Logged Nat :=
  arrangements 2 p.unknownCount

/-- An index leaves no digit over once every unknown bit has taken one. -/
def Pattern.hasIndex {w : Nat} (p : Pattern w) (k : Nat) : Bool :=
  (dropDigits? k p.unknownCount).all (· == 0)

def Pattern.completion {w : Nat} (p : Pattern w) (k : Nat) : Logged (Except Fault (Word w)) :=
  if p.hasIndex k then return .ok (p.fill k)
  else do
    let count ← p.completionCount
    return .error (.outOfRange k count)

theorem Pattern.hasIndex_iff {w : Nat} {p : Pattern w} {k : Nat} :
    p.hasIndex k = true ↔ k < twoPow p.unknownCount :=
  dropDigits?_all_eq_zero

theorem Pattern.completion_of_lt {w k : Nat} {p : Pattern w} (h : k < twoPow p.unknownCount) :
    p.completion k = ⟨.ok (p.fill k), []⟩ :=
  if_pos (Pattern.hasIndex_iff.2 h)

theorem Pattern.completion_of_not_lt {w k : Nat} {p : Pattern w}
    (h : ¬k < twoPow p.unknownCount) :
    p.completion k = do
      let count ← p.completionCount
      return .error (.outOfRange k count) :=
  if_neg (mt Pattern.hasIndex_iff.1 h)

theorem fillBits_allows (ts : List Trit) (k i : Nat) (h : i < ts.length) :
    (ts.getD i default).Allows ((fillBits ts k).getD i false) := by
  induction ts generalizing k i with
  | nil => simp at h
  | cons t ts ih =>
    cases i with
    | zero => cases t <;> simp [fillBits, Trit.Allows]
    | succ i =>
      have hi : i < ts.length := by simpa using h
      cases t <;> simpa only [fillBits, List.getD_cons_succ] using ih _ i hi

theorem Pattern.matches_fill {w : Nat} (p : Pattern w) (k : Nat) : p.Matches (p.fill k) :=
  fun i hi => fillBits_allows p.toList k i (by rw [p.length_toList]; exact hi)

end BitPattern
