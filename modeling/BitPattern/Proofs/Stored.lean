import BitPattern.Json.Vector
import BitPattern.Packed
import BitPattern.Proofs.Bytes
import BitPattern.Proofs.Definite
import BitPattern.Proofs.RoundTrip

/-!
Reading back what is stored. A word is found again in every form that it is written in, at every
width. A pattern is always written as text, and since a text without bits is refused, the only
pattern that is not found again is the one of width 0.
-/

set_option autoImplicit false

namespace BitPattern

theorem Style.legible_plain : Style.plain.Legible := by decide

theorem Row.toList_eq_nil {α : Type} {w : Nat} (a : Row α w) : a.toList = [] ↔ w = 0 := by
  rw [← List.length_eq_zero_iff, a.length_toList]

theorem Pattern.ofText_text {w : Nat} (p : Pattern w) :
    (Pattern.ofText .plain p.text : Except Fault (Pattern w)) =
      if w = 0 then .error .empty else .ok p := by
  have hread := Style.legible_plain.read_render_eq p.toList
  simp only [p.length_toList, p.toList_eq_nil] at hread
  rw [Pattern.ofText, Pattern.text, Pattern.render, hread]
  by_cases hw : w = 0
  · rw [if_pos hw, if_pos hw]
    rfl
  · rw [if_neg hw, if_neg hw]
    exact congrArg Except.ok (Row.ofList_toList p)

/-- A pattern is read back from its text, from JSON and from the packed form, all of which refuse
the empty text of the pattern without bits. -/
theorem Pattern.read_stored_text {w : Nat} (p : Pattern w) :
    if w = 0 then
      p.text = [] ∧
        (Pattern.ofText .plain p.text : Except Fault (Pattern w)) = .error .empty ∧
        (Pattern.ofJson p.toJson : Except Json.Fault (Pattern w)) =
          .error (.refused (.fault .empty)) ∧
        (Pattern.unpack p.pack : Except PackedFault (Pattern w)) = .error (.fault .empty)
    else
      Pattern.ofText .plain p.text = .ok p ∧ Pattern.ofJson p.toJson = .ok p ∧
        Pattern.unpack p.pack = .ok p := by
  have htext := p.ofText_text
  by_cases hw : w = 0
  · rw [if_pos hw] at htext ⊢
    have hbits := p.toList_eq_nil.2 hw
    refine ⟨?_, htext, ?_, ?_⟩
    · rw [Pattern.text, Pattern.render, hbits]
      rfl
    · rw [Pattern.toJson, Pattern.ofJson_quote, htext]
      rfl
    · rw [Pattern.unpack, Pattern.pack, htext]
  · rw [if_neg hw] at htext ⊢
    refine ⟨htext, ?_, ?_⟩
    · rw [Pattern.toJson, Pattern.ofJson_quote, htext]
      rfl
    · rw [Pattern.unpack, Pattern.pack, htext]

-- A text without bits is refused before the number of bits is compared with the width.
theorem Pattern.not_forall_read_stored_text :
    ¬∀ (w : Nat) (p : Pattern w), Pattern.ofText .plain p.text = .ok p ∧
      Pattern.ofJson p.toJson = .ok p ∧ Pattern.unpack p.pack = .ok p := by
  intro h
  have hzero := (h 0 ⟨[], rfl⟩).1
  rw [Pattern.ofText_text, if_pos rfl] at hzero
  cases hzero

theorem Word.ofText_text {w : Nat} (a : Word w) :
    (Word.ofText .plain a.text : Except Fault (Word w)) =
      if w = 0 then .error .empty else .ok a := by
  have htext : a.text = (Pattern.ofWord a).text := rfl
  rw [Word.ofText, htext, Pattern.ofText_text]
  by_cases hw : w = 0
  · rw [if_pos hw, if_pos hw]
    rfl
  · rw [if_neg hw, if_neg hw]
    exact Pattern.toWord_ofWord a

theorem Word.toNat_le_wholeLimit {w : Nat} (h : w ≤ 64) (a : Word w) :
    a.toNat ≤ Json.wholeLimit := by
  have hlt := a.toNat_lt
  have hle : twoPow w ≤ twoPow 64 := Nat.pow_le_pow_right Nat.two_pos h
  have hlimit : Json.wholeLimit + 1 = twoPow 64 := by decide
  omega

theorem Word.ofNumber_toNat {w : Nat} (a : Word w) :
    (Word.ofNumber a.toNat : Except Json.Fault (Word w)) = .ok a := by
  rw [Word.ofNumber_of_lt a.toNat_lt, Word.ofNat_toNat]

theorem Word.ofJson_toJson {w : Nat} (a : Word w) : Word.ofJson a.toJson = .ok a := by
  rw [Word.toJson]
  by_cases hw : w ≤ numberWidth
  · rw [if_pos hw, Word.ofJson_toDigits (a.toNat_le_wholeLimit hw), a.ofNumber_toNat]
  · have hne : w ≠ 0 := fun h => hw (by rw [h]; exact Nat.zero_le _)
    rw [if_neg hw, Word.ofJson_quote, a.ofText_text, if_neg hne]
    rfl

theorem Word.unpack_pack {w : Nat} (a : Word w) : Word.unpack a.pack = .ok a := by
  rw [Word.unpack, Word.pack, a.ofExactBytes_toBytes]

/-- A word is read back from JSON, whether it stands there as its number or as its text, and from
its bytes. Its number always fits. -/
theorem Word.read_stored {w : Nat} (a : Word w) :
    (Word.ofJson a.toJson = .ok a ∧
        a.toJson = if w ≤ 64 then Nat.toDigits 10 a.value else Json.quote a.text) ∧
      (Word.unpack a.pack = .ok a ∧ a.pack = a.toBytes) ∧
      a.value < twoPow w ∧ Word.ofNumber a.value = (.ok a : Except Json.Fault (Word w)) := by
  refine ⟨⟨a.ofJson_toJson, ?_⟩, ⟨a.unpack_pack, rfl⟩, a.value_lt, ?_⟩
  · rw [a.value_eq_toNat]
    rfl
  · rw [a.value_eq_toNat]
    exact a.ofNumber_toNat

end BitPattern
