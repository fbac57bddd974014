import BitPattern.Pattern.Completions
import BitPattern.Style.Reader

set_option autoImplicit false

namespace BitPattern

def Pattern.render {w : Nat} (s : Style) (p : Pattern w) : List Char := s.render p.toList

def Pattern.text {w : Nat} (p : Pattern w) : List Char := p.render .plain

/-- There is a buffer for the bits, since there is one for the pattern. -/
def Pattern.ofText {w : Nat} (s : Style) (text : List Char) : Except Fault (Pattern w) := do
  let bits ← s.read text w
  return .ofList bits

def Pattern.describe {w : Nat} (p : Pattern w) : String :=
  let text := String.ofList p.text
  s!"IncompleteBitVector::<{w}>({text})"

def Completions.describe {w : Nat} (c : Completions w) : String :=
  let pattern := c.pattern.describe
  s!"Completions \x7b vector: {pattern}, front: {c.front}, back: {c.back}, done: {c.done} \x7d"

end BitPattern
