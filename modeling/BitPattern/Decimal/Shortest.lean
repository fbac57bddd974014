import BitPattern.Decimal.Binary64

set_option autoImplicit false

namespace BitPattern

/-- The ends of the interval of reals that round to `x`, in units of `2 ^ (exponent - 2)`. -/
def Binary64.ends (x : Binary64) : Nat × Nat :=
  let below := if x.significand = twoPow 52 ∧ x.exponent ≠ lowestExponent then 1 else 2
  (4 * x.significand - below, 4 * x.significand + 2)

/-- Tells whether `num / den` rounds to `x`. The ends count when the significand is even. -/
def Binary64.readsBack (x : Binary64) (num den : Nat) : Bool :=
  let (low, high) := x.ends
  let (n, d) := scaleQuotient 2 (2 - x.exponent) num den
  if x.significand % 2 = 0 then low * d ≤ n && n ≤ high * d else low * d < n && n < high * d

/-- A decimal number `digits * 10 ^ exponent`. -/
structure Decimal where
  digits : Nat
  exponent : Int
  deriving DecidableEq, Repr

def Decimal.quotient (a : Decimal) : Nat × Nat := scaleQuotient 10 a.exponent a.digits 1

def leadingPower (num den : Nat) : Nat → Int → Int
  | 0, guess => guess
  | fuel + 1, guess =>
    let (n, d) := scaleQuotient 10 (-guess) num den
    if d ≤ n then guess else leadingPower num den fuel (guess - 1)

/-- Of the two neighbours of `x` among the multiples of `10 ^ e`, the nearer one that reads back. -/
def Binary64.onGrid? (x : Binary64) (e : Int) : Option Decimal :=
  let (num, den) := x.quotient
  let (n, d) := scaleQuotient 10 (-e) num den
  let low : Decimal := ⟨n / d, e⟩
  let high : Decimal := ⟨n / d + 1, e⟩
  let fits (a : Decimal) : Bool := x.readsBack a.quotient.1 a.quotient.2
  let near := if roundQuotient n d = n / d then low else high
  let far := if roundQuotient n d = n / d then high else low
  if fits near then some near else if fits far then some far else none

/-- Tries one more digit at a time; 17 digits always read back. -/
def Binary64.withDigits (x : Binary64) (power : Int) : Nat → Nat → Decimal
  | 0, _ => ⟨x.significand, 0⟩
  | fuel + 1, count =>
    match x.onGrid? (power - count) with
    | some a => a
    | none => x.withDigits power fuel (count + 1)

def Binary64.shortest (x : Binary64) : Decimal :=
  let (num, den) := x.quotient
  let guess := ((num.log2 : Int) - den.log2) * 30103 / 100000 + 1
  x.withDigits (leadingPower num den 4 guess) 18 0

def Decimal.significant (a : Decimal) : List Char :=
  let digits := Nat.toDigits 10 a.digits
  let short := (digits.reverse.dropWhile (· == '0')).reverse
  if short.isEmpty then ['0'] else short

def Decimal.leading (a : Decimal) : Int := a.exponent + (Nat.toDigits 10 a.digits).length - 1

def Decimal.positional (digits : List Char) (power : Int) : List Char :=
  if power < 0 then ['0', '.'] ++ List.replicate (-power - 1).toNat '0' ++ digits
  else
    let whole := power.toNat + 1
    let fraction := digits.drop whole
    digits.take whole ++ List.replicate (whole - digits.length) '0' ++ ['.'] ++
      if fraction.isEmpty then ['0'] else fraction

def Decimal.scientific (digits : List Char) (power : Int) : List Char :=
  let fraction := digits.drop 1
  digits.take 1 ++ (if fraction.isEmpty then [] else '.' :: fraction) ++
    ['e', if power < 0 then '-' else '+'] ++ Nat.toDigits 10 power.natAbs

def Binary64.text (x : Binary64) : List Char :=
  if x.significand = 0 then ['0', '.', '0']
  else
    let a := x.shortest
    if -5 ≤ a.leading ∧ a.leading ≤ 15 then Decimal.positional a.significant a.leading
    else Decimal.scientific a.significant a.leading

end BitPattern
