import BitPattern.Pattern
import BitPattern.Power
import BitPattern.Word.Bytes

set_option autoImplicit false

namespace BitPattern

inductive Scalar where
  | uint8
  | int8
  | uint16
  | int16
  | uint32
  | int32
  | binary32
  | uint64
  | int64
  | binary64
  | uint128
  | int128
  deriving DecidableEq, Repr

def Scalar.width : Scalar → Nat
  | .uint8 | .int8 => 8
  | .uint16 | .int16 => 16
  | .uint32 | .int32 | .binary32 => 32
  | .uint64 | .int64 | .binary64 => 64
  | .uint128 | .int128 => 128

def Scalar.isSigned : Scalar → Bool
  | .int8 | .int16 | .int32 | .int64 | .int128 => true
  | _ => false

def Scalar.Holds (s : Scalar) (n : Int) : Prop :=
  if s.isSigned then -twoPow (s.width - 1) ≤ n ∧ n < twoPow (s.width - 1)
  else 0 ≤ n ∧ n < twoPow s.width

instance (s : Scalar) (n : Int) : Decidable (s.Holds n) := by
  unfold Scalar.Holds
  infer_instance

def Scalar.toBytes (s : Scalar) (n : Int) : List UInt8 :=
  (List.range (s.width / 8)).map fun j => UInt8.ofNat (n.shiftRight (8 * j) % 256).toNat

def fromBytes : List UInt8 → Nat
  | [] => 0
  | b :: bs => b.toNat + 256 * fromBytes bs

def Scalar.ofBytes (s : Scalar) (bytes : List UInt8) : Int :=
  let n := fromBytes bytes
  if s.isSigned ∧ twoPow (s.width - 1) ≤ n then n - twoPow s.width else n

def Scalar.toWord (s : Scalar) (n : Int) : Word s.width := .ofBytes (s.toBytes n)

def Scalar.ofWord (s : Scalar) (a : Word s.width) : Int := s.ofBytes a.toBytes

def Scalar.toPattern (s : Scalar) (n : Int) : Pattern s.width := .ofWord (s.toWord n)

def Scalar.ofPattern (s : Scalar) (p : Pattern s.width) : Except Fault Int := do
  let a ← p.toWord
  return s.ofWord a

end BitPattern
