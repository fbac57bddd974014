import BitPattern.Power

/-!
The finite numbers of the 64-bit binary floating-point format, without a sign, in exact integer
arithmetic. `Binary64.nearest?` rounds a quotient to the nearest of them, ties to even.
-/

set_option autoImplicit false

namespace BitPattern

/-- The number `significand * 2 ^ exponent`, with `significand < 2 ^ 53`. -/
structure Binary64 where
  significand : Nat
  exponent : Int
  deriving DecidableEq, Repr

def Binary64.lowestExponent : Int := -1074

def Binary64.highestExponent : Int := 971

def Binary64.zero : Binary64 := ⟨0, lowestExponent⟩

def scaleQuotient (base : Nat) (e : Int) (num den : Nat) : Nat × Nat :=
  (num * Nat.pow base e.toNat, den * Nat.pow base (-e).toNat)

/-- The integer nearest to a quotient; a tie goes to the even one. -/
def roundQuotient (num den : Nat) : Nat :=
  let q := num / den
  let r := 2 * (num % den)
  if r < den then q
  else if den < r then q + 1
  else q + q % 2

/-- The number nearest to `num / den`, unless it is past the largest one. -/
def Binary64.nearest? (num den : Nat) : Option Binary64 :=
  if num = 0 then some zero
  else
    let guess := max ((num.log2 : Int) - den.log2 - 53) lowestExponent
    let small := scaleQuotient 2 (-guess) num den
    let exponent := if small.1 / small.2 < twoPow 53 then guess else guess + 1
    let (n, d) := scaleQuotient 2 (-exponent) num den
    let m := roundQuotient n d
    let (m, exponent) := if m = twoPow 53 then (twoPow 52, exponent + 1) else (m, exponent)
    if exponent ≤ highestExponent then some ⟨m, exponent⟩ else none

def Binary64.quotient (x : Binary64) : Nat × Nat := scaleQuotient 2 x.exponent x.significand 1

def Binary64.timesTenPow? (x : Binary64) (e : Nat) : Option Binary64 := do
  let t ← nearest? (Nat.pow 10 e) 1
  nearest? (x.quotient.1 * t.quotient.1) (x.quotient.2 * t.quotient.2)

def Binary64.overTenPow? (x : Binary64) (e : Nat) : Option Binary64 := do
  let t ← nearest? (Nat.pow 10 e) 1
  nearest? (x.quotient.1 * t.quotient.2) (x.quotient.2 * t.quotient.1)

def Binary64.tenPowLimit : Nat := 308

/-- Reads `m * 10 ^ e`, rounding after every step. A power of ten past `tenPowLimit` takes two steps
downwards, leaves nothing after that, and is past the largest number upwards. -/
def Binary64.ofScientific? (m : Nat) (e : Int) : Option Binary64 := do
  let x ← nearest? m 1
  if m = 0 then return zero
  else if 0 ≤ e then
    if e.toNat ≤ tenPowLimit then x.timesTenPow? e.toNat else none
  else
    let k := (-e).toNat
    if k ≤ tenPowLimit then x.overTenPow? k
    else if k ≤ 2 * tenPowLimit then do
      let y ← x.overTenPow? tenPowLimit
      y.overTenPow? (k - tenPowLimit)
    else return zero

end BitPattern
