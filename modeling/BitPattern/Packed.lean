import BitPattern.Word.Text

set_option autoImplicit false

namespace BitPattern

inductive PackedFault where
  | wrongCount (found width : Nat)
  | fault (f : Fault)
  deriving DecidableEq, Repr

def PackedFault.message : PackedFault → String
  | .wrongCount found width => s!"invalid length {found}, expected a {width}-bit vector"
  | .fault f => f.message

def Word.pack {w : Nat} (a : Word w) : List UInt8 := a.toBytes

def Word.unpack {w : Nat} (bytes : List UInt8) : Except PackedFault (Word w) :=
  match Word.ofExactBytes bytes with
  | .ok a => .ok a
  | .error _ => .error (.wrongCount bytes.length w)

def Pattern.pack {w : Nat} (p : Pattern w) : List Char := p.text

def Pattern.unpack {w : Nat} (text : List Char) : Except PackedFault (Pattern w) :=
  match Pattern.ofText .plain text with
  | .ok p => .ok p
  | .error f => .error (.fault f)

end BitPattern
