import BitPattern.Gate
import BitPattern.Power
import BitPattern.Row

set_option autoImplicit false

namespace BitPattern

abbrev Word (w : Nat) := Row Bool w

/-- The number with these binary digits, the least significant first. -/
def fromBits : List Bool → Nat
  | [] => 0
  | b :: bs => b.toNat + 2 * fromBits bs

def Word.zeros {w : Nat} : Word w := .replicate false

def Word.ones {w : Nat} : Word w := .replicate true

def Word.toNat {w : Nat} (a : Word w) : Nat := fromBits a.toList

def Word.ofNat {w : Nat} (n : Nat) : Word w := .ofFn n.testBit

def Word.not {w : Nat} (a : Word w) : Word w := a.map (!·)

def Word.apply {w : Nat} (g : Gate) (a b : Word w) : Word w := a.zipWith g.eval b

def Word.shiftLeft {w : Nat} (a : Word w) (k : Nat) : Word w := Row.shiftLeft a k

def Word.shiftRight {w : Nat} (a : Word w) (k : Nat) : Word w := Row.shiftRight a k

instance {w : Nat} : Complement (Word w) := ⟨Word.not⟩
instance {w : Nat} : AndOp (Word w) := ⟨Word.apply .and⟩
instance {w : Nat} : OrOp (Word w) := ⟨Word.apply .or⟩
instance {w : Nat} : XorOp (Word w) := ⟨Word.apply .xor⟩
instance {w : Nat} : HShiftLeft (Word w) Nat (Word w) := ⟨Word.shiftLeft⟩
instance {w : Nat} : HShiftRight (Word w) Nat (Word w) := ⟨Word.shiftRight⟩

def Word.countOnes {w : Nat} (a : Word w) : Nat := a.toList.count true

def Word.countZeros {w : Nat} (a : Word w) : Nat := w - a.countOnes

theorem lowDigit (b : Bool) (n : Nat) : (b.toNat + 2 * n) % 2 = b.toNat := by
  have hb := b.toNat_lt
  omega

theorem highDigits (b : Bool) (n : Nat) : (b.toNat + 2 * n) / 2 = n := by
  have hb := b.toNat_lt
  omega

theorem testBit_fromBits (bs : List Bool) (i : Nat) :
    (fromBits bs).testBit i = bs.getD i false := by
  induction bs generalizing i with
  | nil => simp [fromBits]
  | cons b bs ih =>
    cases i with
    | zero =>
      rw [fromBits, Nat.testBit_zero, lowDigit]
      cases b <;> rfl
    | succ i => rw [fromBits, Nat.testBit_succ, highDigits, ih, List.getD_cons_succ]

theorem fromBits_lt (bs : List Bool) : fromBits bs < twoPow bs.length := by
  induction bs with
  | nil => decide
  | cons b bs ih =>
    have hb := b.toNat_le
    rw [List.length_cons, twoPow_succ, fromBits]
    omega

theorem Word.testBit_toNat {w : Nat} (a : Word w) (i : Nat) : a.toNat.testBit i = a.get i :=
  testBit_fromBits a.toList i

theorem Word.toNat_lt {w : Nat} (a : Word w) : a.toNat < twoPow w := by
  have h := fromBits_lt a.toList
  rwa [a.length_toList] at h

@[simp] theorem Word.ofNat_toNat {w : Nat} (a : Word w) : (Word.ofNat a.toNat : Word w) = a :=
  Row.ext_get fun i h => by simp [Word.ofNat, h, a.testBit_toNat]

theorem Word.toNat_ofNat {w : Nat} (n : Nat) : (Word.ofNat n : Word w).toNat = n % twoPow w := by
  apply Nat.eq_of_testBit_eq
  intro i
  rw [Word.testBit_toNat]
  by_cases h : i < w <;> simp [Word.ofNat, h, twoPow, Nat.testBit_mod_two_pow]

end BitPattern
