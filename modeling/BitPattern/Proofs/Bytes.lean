import BitPattern.Proofs.Value
import BitPattern.Word.Bytes

set_option autoImplicit false

namespace BitPattern

theorem toNat_packByte {bs : List Bool} (h : bs.length ≤ 8) :
    (packByte bs).toNat = fromBits bs := by
  have hlt := Nat.lt_of_lt_of_le (fromBits_lt bs) (Nat.pow_le_pow_right Nat.two_pos h)
  rw [packByte_eq]
  exact UInt8.toNat_ofNat_of_lt' hlt

theorem Word.map_toNat_toBytes {w : Nat} (a : Word w) :
    a.toBytes.map UInt8.toNat = (octets a.toList).map fromBits := by
  rw [Word.toBytes, List.map_map]
  exact List.map_congr_left fun bs h => toNat_packByte (length_le_of_mem_octets h)

theorem Word.toNat_getD_toBytes {w : Nat} (a : Word w) (j : Nat) :
    (a.toBytes.getD j 0).toNat = fromBits ((a.toList.drop (8 * j)).take 8) := by
  have hj := congrArg (List.getD · j 0) a.map_toNat_toBytes
  have hbyte := List.getD_map (n := j) a.toBytes 0 UInt8.toNat
  have hgroup := List.getD_map (n := j) (octets a.toList) [] fromBits
  rw [← getD_octets, ← hgroup]
  exact hbyte.symm.trans hj

theorem Word.testBit_getD_toBytes {w : Nat} (a : Word w) (j i : Nat) :
    (a.toBytes.getD j 0).toNat.testBit i = if i < 8 then a.get (8 * j + i) else false := by
  rw [a.toNat_getD_toBytes, testBit_fromBits]
  by_cases h : i < 8
  · simp [h, Row.get, List.getD_eq_getElem?_getD, List.getElem?_drop]
  · simp [h]

theorem Word.ofBytes_toBytes {w : Nat} (a : Word w) : (Word.ofBytes a.toBytes : Word w) = a := by
  apply Row.ext_get
  intro i hi
  have hplace : 8 * (i / 8) + i % 8 = i := by omega
  rw [Word.ofBytes, Row.get_ofFn, if_pos hi, Word.testBit_getD_toBytes, if_pos (by omega), hplace]

theorem Word.ofExactBytes_toBytes {w : Nat} (a : Word w) :
    (Word.ofExactBytes a.toBytes : Except Fault (Word w)) = .ok a := by
  rw [Word.ofExactBytes, if_pos a.length_toBytes, a.ofBytes_toBytes]

theorem fromBits_append (xs ys : List Bool) :
    fromBits (xs ++ ys) = fromBits xs + twoPow xs.length * fromBits ys := by
  simp only [fromBits_eq_ofDigits, List.map_append, Nat.ofDigits_append, List.length_map]
  rfl

theorem ofDigits_octets (bs : List Bool) :
    Nat.ofDigits 256 ((octets bs).map fromBits) = fromBits bs := by
  induction bs using octets_induction with
  | last bs h =>
    by_cases hb : bs = []
    · simp [hb, fromBits]
    · simp [octets_of_length_le hb h]
  | group xs ys hx _ ih =>
    rw [octets_append_of_length_eq hx, List.map_cons, Nat.ofDigits_cons, ih, fromBits_append, hx]
    rfl

/-- The bytes of a word are the digits of its number to the base 256. -/
theorem Word.sum_toBytes {w : Nat} (a : Word w) :
    ∑ j ∈ Finset.range (octetCount w), (a.toBytes.getD j 0).toNat * Nat.pow 256 j = a.value := by
  have hget : ∀ j, (a.toBytes.map UInt8.toNat).getD j 0 = (a.toBytes.getD j 0).toNat :=
    fun j => List.getD_map a.toBytes 0 UInt8.toNat
  have hsum := sum_digits 256 (a.toBytes.map UInt8.toNat)
  rw [List.length_map, a.length_toBytes, a.map_toNat_toBytes, ofDigits_octets] at hsum
  rw [a.value_eq_toNat, Word.toNat, ← hsum, ← a.map_toNat_toBytes]
  exact Finset.sum_congr rfl fun j _ => by rw [hget]

end BitPattern
