import BitPattern.Pattern.Text
import BitPattern.Word.Bytes

set_option autoImplicit false

namespace BitPattern

def Word.text {w : Nat} (a : Word w) : List Char := Style.plain.render (a.toList.map Trit.ofBool)

def Word.ofText {w : Nat} (s : Style) (text : List Char) : Except Fault (Word w) := do
  let p : Pattern w ← Pattern.ofText s text
  p.toWord

def Word.describe {w : Nat} (a : Word w) : String :=
  let text := String.ofList a.text
  s!"BitVector::<{w}>({text})"

inductive Radix where
  | binary
  | lowerHex
  | upperHex
  deriving DecidableEq, Repr

def Radix.mark : Radix → List Char
  | .binary => ['0', 'b']
  | .lowerHex | .upperHex => ['0', 'x']

def lowerDigits : List Char := "0123456789abcdef".toList

def upperDigits : List Char := "0123456789ABCDEF".toList

def hexDigits (digits : List Char) (bytes : List UInt8) : List Char :=
  bytes.reverse.flatMap fun byte =>
    [digits.getD (byte.toNat / 16) '0', digits.getD (byte.toNat % 16) '0']

def Word.digits {w : Nat} (a : Word w) : Radix → List Char
  | .binary => a.toList.reverse.map fun b => if b then '1' else '0'
  | .lowerHex => hexDigits lowerDigits a.toBytes
  | .upperHex => hexDigits upperDigits a.toBytes

def Word.numeral {w : Nat} (a : Word w) (r : Radix) (marked : Bool) : List Char :=
  if marked then r.mark ++ a.digits r else a.digits r

end BitPattern
