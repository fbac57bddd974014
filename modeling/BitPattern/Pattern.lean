import BitPattern.Fault
import BitPattern.Word

set_option autoImplicit false

namespace BitPattern

abbrev Pattern (w : Nat) := Row Trit w

def Pattern.Matches {w : Nat} (p : Pattern w) (a : Word w) : Prop :=
  ∀ i < w, (p.get i).Allows (a.get i)

instance {w : Nat} (p : Pattern w) (a : Word w) : Decidable (p.Matches a) :=
  inferInstanceAs (Decidable (∀ i < w, (p.get i).Allows (a.get i)))

def Pattern.free {w : Nat} : Pattern w := .replicate .unknown

def Pattern.ofWord {w : Nat} (a : Word w) : Pattern w := a.map Trit.ofBool

def Pattern.ofExactList {w : Nat} (ts : List Trit) : Except Fault (Pattern w) :=
  if h : ts.length = w then .ok ⟨ts, h⟩ else .error (.lengthMismatch w ts.length)

def Pattern.isComplete {w : Nat} (p : Pattern w) : Bool := p.toList.all Trit.isKnown

def Pattern.unknownPositions {w : Nat} (p : Pattern w) : List Nat :=
  (List.range w).filter fun i => (p.get i).isUnknown

def Pattern.unknownCount {w : Nat} (p : Pattern w) : Nat := p.toList.countP Trit.isUnknown

/-- The only word of a pattern without unknown bits. -/
def Pattern.complete? {w : Nat} (p : Pattern w) : Option (Word w) :=
  if p.isComplete then some (p.map (· == .one)) else none

def Pattern.toWord {w : Nat} (p : Pattern w) : Except Fault (Word w) :=
  match p.complete? with
  | some a => .ok a
  | none => .error (.unknownBit (p.unknownPositions.headD 0))

/-- Two patterns overlap when no position is known to differ. -/
def Pattern.overlaps {w : Nat} (p q : Pattern w) : Bool :=
  (p.toList.zip q.toList).all fun (s, t) =>
    match s.value?, t.value? with
    | some a, some b => a == b
    | _, _ => true

def Pattern.not {w : Nat} (p : Pattern w) : Pattern w := Row.map Trit.not p

def Pattern.apply {w : Nat} (g : Gate) (p q : Pattern w) : Pattern w := p.zipWith g.apply q

def Pattern.shiftLeft {w : Nat} (p : Pattern w) (k : Nat) : Pattern w := Row.shiftLeft p k

def Pattern.shiftRight {w : Nat} (p : Pattern w) (k : Nat) : Pattern w := Row.shiftRight p k

instance {w : Nat} : Complement (Pattern w) := ⟨Pattern.not⟩
instance {w : Nat} : AndOp (Pattern w) := ⟨Pattern.apply .and⟩
instance {w : Nat} : OrOp (Pattern w) := ⟨Pattern.apply .or⟩
instance {w : Nat} : XorOp (Pattern w) := ⟨Pattern.apply .xor⟩
instance {w : Nat} : HShiftLeft (Pattern w) Nat (Pattern w) := ⟨Pattern.shiftLeft⟩
instance {w : Nat} : HShiftRight (Pattern w) Nat (Pattern w) := ⟨Pattern.shiftRight⟩

def Trit.zipWith (f : Trit → Trit → Trit) (ss ts : List Trit) : Except Fault (List Trit) :=
  if ss.length = ts.length then .ok (List.zipWith f ss ts)
  else .error (.lengthMismatch ss.length ts.length)

theorem Pattern.get_ofWord {w : Nat} (a : Word w) {i : Nat} (h : i < w) :
    (Pattern.ofWord a).get i = .ofBool (a.get i) :=
  Row.get_map _ _ h

theorem Pattern.get_not {w : Nat} (p : Pattern w) {i : Nat} (h : i < w) :
    (~~~p).get i = (p.get i).not :=
  Row.get_map _ _ h

theorem Pattern.get_apply {w : Nat} (g : Gate) (p q : Pattern w) {i : Nat} (h : i < w) :
    (p.apply g q).get i = g.apply (p.get i) (q.get i) :=
  Row.get_zipWith _ _ _ h

theorem Pattern.matches_ofWord {w : Nat} {a b : Word w} : (Pattern.ofWord a).Matches b ↔ b = a := by
  constructor
  · intro h
    refine Row.ext_get fun i hi => ?_
    have := h i hi
    rwa [Pattern.get_ofWord a hi, Trit.allows_ofBool] at this
  · rintro rfl i hi
    rw [Pattern.get_ofWord b hi]
    exact Trit.allows_ofBool.2 rfl

theorem Pattern.mem_unknownPositions {w : Nat} {p : Pattern w} {i : Nat} :
    i ∈ p.unknownPositions ↔ i < w ∧ p.get i = .unknown := by
  have h : ∀ t : Trit, t.isUnknown = true ↔ t = .unknown := by intro t; cases t <;> decide
  simp [Pattern.unknownPositions, h]

end BitPattern
