import BitPattern.Octets
import BitPattern.Pattern

set_option autoImplicit false

namespace BitPattern

/-- The last byte is filled up with clear bits. -/
def Pattern.toBytes {w : Nat} (p : Pattern w) : List (Pattern 8) := (octets p.toList).map Row.ofList

def joinBytes (bytes : List (Pattern 8)) : List Trit := bytes.flatMap Row.toList

def Pattern.ofBytes {w : Nat} (bytes : List (Pattern 8)) : Except Fault (Pattern w) :=
  if bytes.length = octetCount w then .ok (.ofList (joinBytes bytes))
  else .error (.lengthMismatch (octetCount w) bytes.length)

/-- Regroups into another width by way of bytes. -/
def Pattern.resize {v : Nat} (w : Nat) (p : Pattern v) : Pattern w := .ofList (joinBytes p.toBytes)

@[simp] theorem Pattern.length_toBytes {w : Nat} (p : Pattern w) :
    p.toBytes.length = octetCount w := by
  simp [Pattern.toBytes, p.length_toList]

end BitPattern
