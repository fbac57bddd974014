import BitPattern.Trit

/-!
The six binary gates: on definite bits, on three-valued bits, and solved backwards. Solving asks,
for a result and one operand, for the other operand that gives the result whatever the known
operand turns out to be. The negated gates solve through the negated result.
-/

set_option autoImplicit false

namespace BitPattern

inductive Gate where
  | and
  | nand
  | nor
  | or
  | xnor
  | xor
  deriving DecidableEq, Repr

def Gate.all : List Gate := [.and, .nand, .nor, .or, .xnor, .xor]

def Gate.name : Gate → String
  | .and => "And"
  | .nand => "Nand"
  | .nor => "Nor"
  | .or => "Or"
  | .xnor => "Xnor"
  | .xor => "Xor"

def Gate.title : Gate → String
  | .and => "AND"
  | .nand => "NAND"
  | .nor => "NOR"
  | .or => "OR"
  | .xnor => "XNOR"
  | .xor => "XOR"

def Gate.eval : Gate → Bool → Bool → Bool
  | .and, a, b => a && b
  | .nand, a, b => !(a && b)
  | .nor, a, b => !(a || b)
  | .or, a, b => a || b
  | .xnor, a, b => !(a ^^ b)
  | .xor, a, b => a ^^ b

def Gate.apply : Gate → Trit → Trit → Trit
  | .and => Trit.and
  | .nand => Trit.nand
  | .nor => Trit.nor
  | .or => Trit.or
  | .xnor => Trit.xnor
  | .xor => Trit.xor

/-- Solves `x AND known = result`. -/
def Trit.solveAnd? : (result known : Trit) → Option Trit
  | .unknown, .unknown | .unknown, .one | .zero, .zero => some .unknown
  | .zero, .unknown | .zero, .one => some .zero
  | .one, .one => some .one
  | .one, .unknown | .one, .zero | .unknown, .zero => none

def Trit.solveOr? : (result known : Trit) → Option Trit
  | .unknown, .unknown | .unknown, .zero | .one, .one => some .unknown
  | .one, .unknown | .one, .zero => some .one
  | .zero, .zero => some .zero
  | .zero, .unknown | .zero, .one | .unknown, .one => none

/-- Solves `x XOR known = result`. An unknown result accepts anything. -/
def Trit.solveXor? : (result known : Trit) → Option Trit
  | .unknown, _ => some .unknown
  | _, .unknown => none
  | r, k => some (r.xor k)

def Gate.solve? : Gate → (result known : Trit) → Option Trit
  | .and, r, k => r.solveAnd? k
  | .nand, r, k => r.not.solveAnd? k
  | .nor, r, k => r.not.solveOr? k
  | .or, r, k => r.solveOr? k
  | .xnor, r, k => r.not.solveXor? k
  | .xor, r, k => r.solveXor? k

def Trit.canSolveAnd : (result known : Trit) → Bool
  | .one, .unknown | .unknown, .zero | .one, .zero => false
  | _, _ => true

def Trit.canSolveOr : (result known : Trit) → Bool
  | .zero, .unknown | .unknown, .one | .zero, .one => false
  | _, _ => true

def Trit.canSolveXor : (result known : Trit) → Bool
  | .zero, .unknown | .one, .unknown => false
  | _, _ => true

def Gate.canSolve : Gate → (result known : Trit) → Bool
  | .and, r, k => r.canSolveAnd k
  | .nand, r, k => r.not.canSolveAnd k
  | .nor, r, k => r.not.canSolveOr k
  | .or, r, k => r.canSolveOr k
  | .xnor, r, k => r.not.canSolveXor k
  | .xor, r, k => r.canSolveXor k

theorem Gate.canSolve_eq_isSome (g : Gate) (r k : Trit) :
    g.canSolve r k = (g.solve? r k).isSome := by
  cases g <;> cases r <;> cases k <;> rfl

end BitPattern
