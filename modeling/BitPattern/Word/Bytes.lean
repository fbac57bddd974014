import BitPattern.Fault
import BitPattern.Octets
import BitPattern.Word

set_option autoImplicit false

namespace BitPattern

/-- The byte with these bits, the lowest first, each moving up the ones after it. -/
def packByte (bits : List Bool) : UInt8 := bits.foldr (fun b byte => byte <<< 1 ||| b.toUInt8) 0

/-- The bytes of a number, the lowest first, up to the highest one that is not zero. -/
def numberBytes (n : Nat) : List UInt8 :=
  if n = 0 then [] else .ofNat n :: numberBytes (n / 256)
termination_by n
decreasing_by omega

def Word.ofBytes {w : Nat} (bytes : List UInt8) : Word w :=
  .ofFn fun i => (bytes.getD (i / 8) 0).toNat.testBit (i % 8)

def Word.ofExactBytes {w : Nat} (bytes : List UInt8) : Except Fault (Word w) :=
  if bytes.length = octetCount w then .ok (.ofBytes bytes)
  else .error (.lengthMismatch (octetCount w) bytes.length)

def Word.toBytes {w : Nat} (a : Word w) : List UInt8 := (octets a.toList).map packByte

@[simp] theorem Word.length_toBytes {w : Nat} (a : Word w) : a.toBytes.length = octetCount w := by
  simp [Word.toBytes, a.length_toList]

theorem toNat_shiftLeft_or (byte : UInt8) (b : Bool) :
    (byte <<< 1 ||| b.toUInt8).toNat = (b.toNat + 2 * byte.toNat) % 256 := by
  have hb : b.toNat < 2 ^ 1 := b.toNat_lt
  have hbit : b.toUInt8.toNat = b.toNat := by cases b <;> rfl
  -- the highest bit is moved out
  have hup : byte.toNat <<< 1 % 256 = (byte.toNat % 128) <<< 1 := by
    simp only [Nat.shiftLeft_eq]
    omega
  calc (byte <<< 1 ||| b.toUInt8).toNat
      = byte.toNat <<< 1 % 256 ||| b.toUInt8.toNat := by
        rw [UInt8.toNat_or, UInt8.toNat_shiftLeft]
        rfl
    _ = (byte.toNat % 128) <<< 1 + b.toNat := by
        rw [hbit, hup, Nat.shiftLeft_add_eq_or_of_lt hb]
    _ = (b.toNat + 2 * byte.toNat) % 256 := by
        rw [Nat.shiftLeft_eq]
        omega

theorem packByte_eq (bits : List Bool) : packByte bits = UInt8.ofNat (fromBits bits) := by
  induction bits with
  | nil => rfl
  | cons b bits ih =>
    have hstep : packByte (b :: bits) = packByte bits <<< 1 ||| b.toUInt8 := rfl
    apply UInt8.toNat_inj.1
    rw [hstep, toNat_shiftLeft_or, ih, fromBits, UInt8.toNat_ofNat', UInt8.toNat_ofNat']
    omega

theorem testBit_getD_numberBytes (n j : Nat) {i : Nat} (h : i < 8) :
    ((numberBytes n).getD j 0).toNat.testBit i = n.testBit (8 * j + i) := by
  induction n using numberBytes.induct generalizing j with
  | case1 => simp [numberBytes]
  | case2 n hn ih =>
    rw [numberBytes, if_neg hn]
    cases j with
    | zero =>
      rw [List.getD_cons_zero, UInt8.toNat_ofNat', Nat.testBit_mod_two_pow, decide_eq_true h,
        Bool.true_and, Nat.mul_zero, Nat.zero_add]
    | succ j =>
      have hplace : 8 + (8 * j + i) = 8 * (j + 1) + i := by omega
      have hrest : n / 256 = n >>> 8 := (Nat.shiftRight_eq_div_pow n 8).symm
      rw [List.getD_cons_succ, ih, hrest, Nat.testBit_shiftRight, hplace]

theorem Word.ofBytes_numberBytes {w : Nat} (n : Nat) :
    (Word.ofBytes (numberBytes n) : Word w) = .ofNat n := by
  apply Row.ext_get
  intro i hi
  have hplace : 8 * (i / 8) + i % 8 = i := by omega
  rw [Word.ofBytes, Row.get_ofFn, Word.ofNat, Row.get_ofFn, if_pos hi, if_pos hi,
    testBit_getD_numberBytes _ _ (by omega), hplace]

end BitPattern
