/-!
Three-valued bits: known clear, known set, or unknown. AND keeps an unknown operand even against
a known clear one; OR settles as soon as one side is set; XOR needs both sides.
-/

set_option autoImplicit false

namespace BitPattern

inductive Trit where
  | zero
  | one
  | unknown
  deriving DecidableEq, Repr

/-- Positions past the end of a row read as clear. -/
instance : Inhabited Trit := ⟨.zero⟩

def Trit.all : List Trit := [.zero, .one, .unknown]

def Trit.ofBool : Bool → Trit
  | false => .zero
  | true => .one

def Trit.ofOption : Option Bool → Trit
  | none => .unknown
  | some b => .ofBool b

def Trit.value? : Trit → Option Bool
  | .zero => some false
  | .one => some true
  | .unknown => none

def Trit.isUnknown : Trit → Bool
  | .unknown => true
  | _ => false

def Trit.isKnown (t : Trit) : Bool := !t.isUnknown

/-- The definite bits that a three-valued bit may stand for. -/
def Trit.Allows : Trit → Bool → Prop
  | .zero, b => b = false
  | .one, b => b = true
  | .unknown, _ => True

instance (t : Trit) (b : Bool) : Decidable (t.Allows b) := by
  cases t <;> unfold Trit.Allows <;> infer_instance

def Trit.not : Trit → Trit
  | .zero => .one
  | .one => .zero
  | .unknown => .unknown

def Trit.and : Trit → Trit → Trit
  | .unknown, _ | _, .unknown => .unknown
  | .one, .one => .one
  | _, _ => .zero

def Trit.or : Trit → Trit → Trit
  | .one, _ | _, .one => .one
  | .zero, .zero => .zero
  | _, _ => .unknown

def Trit.xor : Trit → Trit → Trit
  | .unknown, _ | _, .unknown => .unknown
  | .zero, .zero | .one, .one => .zero
  | .zero, .one | .one, .zero => .one

def Trit.nand (s t : Trit) : Trit := (s.and t).not
def Trit.nor (s t : Trit) : Trit := (s.or t).not
def Trit.xnor (s t : Trit) : Trit := (s.xor t).not

def Trit.symbol : Trit → Char
  | .zero => '0'
  | .one => '1'
  | .unknown => '*'

def Trit.name : Trit → String
  | .zero => "False"
  | .one => "True"
  | .unknown => "Unknown"

@[simp] theorem Trit.not_not (t : Trit) : t.not.not = t := by cases t <;> rfl

theorem Trit.allows_ofBool {a b : Bool} : (Trit.ofBool a).Allows b ↔ b = a := by
  cases a <;> rfl

theorem Trit.allows_iff {t : Trit} {b : Bool} : t.Allows b ↔ ∀ a, t.value? = some a → b = a := by
  cases t <;> simp [Trit.Allows, Trit.value?]

end BitPattern
