import BitPattern.Proofs.Regrouping
import BitPattern.Proofs.Scalar

/-!
The bytes of words as the bytes of patterns. A byte of numbers is a byte of known bits, and both
ways of taking bits apart into bytes and putting them together follow the same layout. What a
pattern keeps of its bytes is therefore what a word keeps: everything but the highest bits of the
last one.
-/

set_option autoImplicit false

namespace BitPattern

/-- A byte as a pattern of known bits, by way of its number like any other value of the format. -/
def Pattern.ofByte (b : UInt8) : Pattern 8 := Scalar.uint8.toPattern b.toNat

def lowByte (n : Nat) (b : UInt8) : UInt8 := .ofNat (b.toNat % twoPow n)

theorem Pattern.get_ofByte (b : UInt8) {i : Nat} (h : i < 8) :
    (Pattern.ofByte b).get i = .ofBool (b.toNat.testBit i) := by
  have hbit : (Scalar.uint8.toWord b.toNat).get i = b.toNat.testBit i :=
    Scalar.get_toWord .uint8 b.toNat h
  rw [← hbit]
  exact Pattern.get_ofWord _ h

theorem Pattern.ofByte_zero : Pattern.ofByte 0 = default := by decide

theorem Scalar.ofPattern_ofByte (b : UInt8) :
    Scalar.uint8.ofPattern (Pattern.ofByte b) = .ok b.toNat := by
  have hholds : Scalar.uint8.Holds b.toNat :=
    Scalar.holds_ofNat.2 ⟨b.toNat_lt, fun hsigned => nomatch hsigned.1⟩
  exact Scalar.ofPattern_eq_ok.2 ⟨hholds, rfl⟩

theorem Pattern.ofByte_injective : Function.Injective Pattern.ofByte := by
  intro b c h
  have hvalue : Except.ok (b.toNat : Int) = (.ok c.toNat : Except Fault Int) := by
    rw [← Scalar.ofPattern_ofByte, ← Scalar.ofPattern_ofByte, h]
  exact UInt8.toNat_inj.1 (Int.ofNat.inj (Except.ok.inj hvalue))

theorem Pattern.ofByte_packByte {bs : List Bool} (h : bs.length ≤ 8) :
    Pattern.ofByte (packByte bs) = Row.ofList (bs.map Trit.ofBool) := by
  apply Row.ext_get
  intro i hi
  have hmap : (bs.map Trit.ofBool).getD i default = .ofBool (bs.getD i false) :=
    List.getD_map bs false Trit.ofBool
  rw [Pattern.get_ofByte _ hi, Row.get_ofList, if_pos hi, hmap, toNat_packByte h, testBit_fromBits]

theorem Pattern.ofByte_lowByte (n : Nat) (b : UInt8) :
    Pattern.ofByte (lowByte n b) = (Pattern.ofByte b).keep n := by
  have hlt : b.toNat % twoPow n < 2 ^ 8 := Nat.lt_of_le_of_lt (Nat.mod_le _ _) b.toNat_lt
  apply Row.ext_get
  intro i hi
  have hbit : (b.toNat % twoPow n).testBit i = (decide (i < n) && b.toNat.testBit i) :=
    Nat.testBit_mod_two_pow _ _ _
  rw [Pattern.get_ofByte _ hi, lowByte, UInt8.toNat_ofNat_of_lt' hlt, hbit, Row.get_keep _ _ hi,
    Pattern.get_ofByte _ hi]
  by_cases hn : i < n
  · rw [decide_eq_true hn, Bool.true_and, if_pos hn]
  · rw [decide_eq_false hn, Bool.false_and, if_neg hn]
    rfl

theorem Pattern.toBytes_ofWord {w : Nat} (a : Word w) :
    (Pattern.ofWord a).toBytes = a.toBytes.map Pattern.ofByte := by
  have hlist : (Pattern.ofWord a).toList = a.toList.map Trit.ofBool := rfl
  rw [Pattern.toBytes, hlist, octets_map, Word.toBytes, List.map_map, List.map_map]
  exact List.map_congr_left fun bs h =>
    (Pattern.ofByte_packByte (length_le_of_mem_octets h)).symm

theorem Pattern.ofBytes_map_ofByte {w : Nat} {bytes : List UInt8}
    (h : bytes.length = octetCount w) : Pattern.ofBytes (bytes.map Pattern.ofByte) =
      .ok (Pattern.ofWord (Word.ofBytes bytes : Word w)) := by
  rw [Pattern.ofBytes_eq_ok, List.length_map]
  refine ⟨h, fun j i hi hw => ?_⟩
  have hmap : (bytes.map Pattern.ofByte).getD j default = Pattern.ofByte (bytes.getD j 0) := by
    rw [← Pattern.ofByte_zero]
    exact List.getD_map bytes 0 Pattern.ofByte
  have hbyte : (8 * j + i) / 8 = j ∧ (8 * j + i) % 8 = i := by omega
  rw [hmap, Pattern.get_ofByte _ hi, Pattern.get_ofWord _ hw, Word.ofBytes, Row.get_ofFn, if_pos hw,
    hbyte.1, hbyte.2]

theorem map_modify {α β : Type} {f : α → β} {g : α → α} {h : β → β}
    (hfg : ∀ x, f (g x) = h (f x)) (xs : List α) (i : Nat) :
    (xs.modify i g).map f = (xs.map f).modify i h := by
  apply List.ext_getElem (by simp)
  intro j _ _
  rw [List.getElem_map, List.getElem_modify, List.getElem_modify, List.getElem_map]
  by_cases hij : i = j
  · rw [if_pos hij, if_pos hij, hfg]
  · rw [if_neg hij, if_neg hij]

/-- What is lost on the way from bytes to a word is what a pattern loses of the same bytes. -/
theorem Word.toBytes_ofBytes {w : Nat} {bytes : List UInt8} (h : bytes.length = octetCount w) :
    (Word.ofBytes bytes : Word w).toBytes =
      if w % 8 = 0 then bytes else bytes.modify (bytes.length - 1) (lowByte (w % 8)) := by
  have hpattern := Pattern.toBytes_of_ofBytes (Pattern.ofBytes_map_ofByte h)
  apply List.map_injective_iff.2 Pattern.ofByte_injective
  rw [← Pattern.toBytes_ofWord, hpattern, List.length_map]
  by_cases hw : w % 8 = 0
  · rw [if_pos hw, if_pos hw]
  · rw [if_neg hw, if_neg hw, map_modify (Pattern.ofByte_lowByte _)]

theorem Pattern.getElem?_toBytes_ofWord {w j : Nat} (a : Word w) (hj : j < octetCount w) :
    ∃ b, a.toBytes[j]? = some b ∧ (Pattern.ofWord a).toBytes[j]? = some (Pattern.ofByte b) := by
  have hlength : j < a.toBytes.length := by rwa [a.length_toBytes]
  have hbyte := List.getElem?_eq_getElem hlength
  refine ⟨_, hbyte, ?_⟩
  rw [Pattern.toBytes_ofWord, List.getElem?_map, hbyte, Option.map_some]

/-- A word is its bytes, and any list of the right number of bytes makes a word, which keeps all of
them but the bits of the last one past the width. The bytes of its pattern are known and have the
same numbers, and the same bytes make its pattern. -/
theorem Word.byte_codec (w : Nat) :
    (∀ a : Word w, Word.ofExactBytes a.toBytes = .ok a ∧
        ∀ j < octetCount w, ∃ b p, a.toBytes[j]? = some b ∧
          (Pattern.ofWord a).toBytes[j]? = some p ∧ p.isComplete = true ∧
          Scalar.uint8.ofPattern p = .ok b.toNat) ∧
      ∀ bytes : List UInt8,
        if bytes.length = octetCount w then
          ∃ a : Word w, Word.ofExactBytes bytes = .ok a ∧
            (a.toBytes =
              if w % 8 = 0 then bytes else bytes.modify (bytes.length - 1) (lowByte (w % 8))) ∧
            Pattern.ofBytes (bytes.map Pattern.ofByte) = .ok (Pattern.ofWord a)
        else
          (Word.ofExactBytes bytes : Except Fault (Word w)) =
            .error (.lengthMismatch (octetCount w) bytes.length) := by
  refine ⟨fun a => ⟨a.ofExactBytes_toBytes, fun j hj => ?_⟩, fun bytes => ?_⟩
  · obtain ⟨b, hb, hp⟩ := Pattern.getElem?_toBytes_ofWord a hj
    exact ⟨b, _, hb, hp, Pattern.isComplete_ofWord _, Scalar.ofPattern_ofByte b⟩
  · by_cases hl : bytes.length = octetCount w
    · rw [if_pos hl]
      exact ⟨.ofBytes bytes, if_pos hl, Word.toBytes_ofBytes hl, Pattern.ofBytes_map_ofByte hl⟩
    · rw [if_neg hl]
      exact if_neg hl

theorem Word.byte_codec_twelve :
    let a : Word 12 := .ofNat 0xA35
    1 < octetCount 12 ∧ ∃ b p, a.toBytes[1]? = some b ∧
      (Pattern.ofWord a).toBytes[1]? = some p ∧ p.isComplete = true ∧
      Scalar.uint8.ofPattern p = .ok b.toNat := by
  intro a
  have hbyte : 1 < octetCount 12 := by decide
  exact ⟨hbyte, ((Word.byte_codec 12).1 a).2 1 hbyte⟩

example : (Word.ofBytes [0x35, 0xFA] : Word 12).toBytes = [0x35, 0x0A] := by decide

end BitPattern
