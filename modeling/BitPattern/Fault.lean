import BitPattern.Gate

set_option autoImplicit false

namespace BitPattern

inductive Fault where
  | outOfRange (index count : Nat)
  | empty
  /-- A gate has no solution at this position, the lowest such. -/
  | unsolvable (gate : Gate) (position : Nat)
  | invalidDigit (c : Char)
  | lengthMismatch (expected actual : Nat)
  /-- A definite bit was needed here, the lowest unknown position. -/
  | unknownBit (position : Nat)
  deriving DecidableEq, Repr

def Fault.message : Fault → String
  | .outOfRange index count => s!"Completion index {index} out of range for {count} permutations"
  | .empty => "Empty value"
  | .unsolvable gate position => s!"Reverse {gate.title} is infeasible at bit {position}"
  | .invalidDigit c => s!"Invalid digit: {c}"
  | .lengthMismatch expected actual => s!"Length mismatch: expected {expected}, got {actual}"
  | .unknownBit position => s!"Bit {position} is unknown"

end BitPattern
