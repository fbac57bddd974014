import BitPattern.Proofs.Shift
import Mathlib.Data.List.GetD

/-!
Gates applied to lists of bits and to the patterns made from the lists. Below the length of the
lists it is the same bits either way. Past it the lists have no bits, and a pattern is filled up
with clear ones: made from the result it has them there, but a gate applied to two filled-up
patterns may turn them into set ones.
-/

set_option autoImplicit false

namespace BitPattern

theorem Trit.zipWith_of_length_eq (f : Trit → Trit → Trit) {ss ts : List Trit}
    (h : ss.length = ts.length) : Trit.zipWith f ss ts = .ok (List.zipWith f ss ts) := if_pos h

theorem Trit.zipWith_eq_error_iff {f : Trit → Trit → Trit} {ss ts : List Trit} :
    Trit.zipWith f ss ts = .error (.lengthMismatch ss.length ts.length) ↔
      ss.length ≠ ts.length := by
  constructor
  · intro h hlength
    rw [Trit.zipWith_of_length_eq f hlength] at h
    cases h
  · exact fun hlength => if_neg hlength

theorem getD_zipWith {α β γ : Type} (f : α → β → γ) {xs : List α} {ys : List β} {i : Nat}
    (hx : i < xs.length) (hy : i < ys.length) (a : α) (b : β) (c : γ) :
    (List.zipWith f xs ys).getD i c = f (xs.getD i a) (ys.getD i b) := by
  have hz : i < (List.zipWith f xs ys).length := by
    rw [List.length_zipWith]
    omega
  rw [List.getD_eq_getElem _ _ hx, List.getD_eq_getElem _ _ hy, List.getD_eq_getElem _ _ hz,
    List.getElem_zipWith]

theorem Pattern.agreeBut_ofList_zipWith (w : Nat) (g : Gate) {ss ts : List Trit}
    (h : ss.length = ts.length) :
    Pattern.AgreeBut (ss.length ≤ ·) (g.apply .zero .zero)
      (Row.ofList (List.zipWith g.apply ss ts) : Pattern w)
      (Pattern.apply g (.ofList ss) (.ofList ts)) := by
  intro i hi
  rw [Pattern.get_apply g _ _ hi, Row.get_ofList, Row.get_ofList, Row.get_ofList, if_pos hi,
    if_pos hi, if_pos hi]
  constructor
  · intro hpast
    have hz : (List.zipWith g.apply ss ts).length ≤ i := by
      rw [List.length_zipWith]
      omega
    rw [List.getD_eq_default _ _ hz, List.getD_eq_default _ _ hpast,
      List.getD_eq_default _ _ (by omega)]
    exact ⟨rfl, rfl⟩
  · intro hbelow
    exact getD_zipWith g.apply (by omega) (by omega) _ _ _

theorem Pattern.DifferAt.eq_iff {w : Nat} {positions : Nat → Prop} {p q : Pattern w}
    (h : Pattern.DifferAt positions p q) : p = q ↔ ∀ i < w, ¬positions i := by
  constructor
  · rintro rfl i hi hp
    exact (h i hi).1.2 hp rfl
  · intro hnone
    apply Row.ext_get
    intro i hi
    by_contra hne
    exact hnone i hi ((h i hi).1.1 hne)

/-- Gates are applied to lists of one length only. What they give, made into a pattern, is the gate
applied to the patterns of the two lists; for a negated gate, which turns the clear bits past the
end of both lists into set ones, it is so exactly when no bit has to be filled up. -/
theorem Pattern.ofList_zipWith (w : Nat) (g : Gate) (ss ts : List Trit) :
    (Trit.zipWith g.apply ss ts = .error (.lengthMismatch ss.length ts.length) ↔
        ss.length ≠ ts.length) ∧
      (ss.length = ts.length → ∃ zs, Trit.zipWith g.apply ss ts = .ok zs ∧
        (g = .and ∨ g = .or ∨ g = .xor →
          (Row.ofList zs : Pattern w) = Pattern.apply g (.ofList ss) (.ofList ts)) ∧
        (g = .nand ∨ g = .nor ∨ g = .xnor →
          ((Row.ofList zs : Pattern w) = Pattern.apply g (.ofList ss) (.ofList ts) ↔
            w ≤ ss.length))) := by
  refine ⟨Trit.zipWith_eq_error_iff, fun h => ?_⟩
  have hagree := Pattern.agreeBut_ofList_zipWith w g h
  refine ⟨_, Trit.zipWith_of_length_eq g.apply h, ?_, ?_⟩
  · intro hg
    have hzero : g.apply .zero .zero = .zero := by rcases hg with rfl | rfl | rfl <;> rfl
    rw [hzero] at hagree
    exact hagree.eq
  · intro hg
    have hone : g.apply .zero .zero = .one := by rcases hg with rfl | rfl | rfl <;> rfl
    rw [hone] at hagree
    rw [hagree.differAt.eq_iff]
    constructor
    · intro hnone
      by_contra hlt
      exact hnone ss.length (by omega) (Nat.le_refl _)
    · intro hle i hi hpast
      omega

-- Two bits are too few for three positions: XOR leaves the third clear, and NAND sets it.
theorem Pattern.ofList_zipWith_short :
    let ss : List Trit := [.one, .unknown]
    let ts : List Trit := [.zero, .one]
    ss.length = ts.length ∧
      (∃ zs, Trit.zipWith Gate.xor.apply ss ts = .ok zs ∧
        (Row.ofList zs : Pattern 3) = Pattern.apply .xor (.ofList ss) (.ofList ts)) ∧
      ∃ zs, Trit.zipWith Gate.nand.apply ss ts = .ok zs ∧
        (Row.ofList zs : Pattern 3) ≠ Pattern.apply .nand (.ofList ss) (.ofList ts) := by
  intro ss ts
  have hlength : ss.length = ts.length := rfl
  obtain ⟨xs, hxs, hxor, -⟩ := (Pattern.ofList_zipWith 3 .xor ss ts).2 hlength
  obtain ⟨zs, hzs, -, hnand⟩ := (Pattern.ofList_zipWith 3 .nand ss ts).2 hlength
  refine ⟨hlength, ⟨xs, hxs, hxor (by decide)⟩, zs, hzs, fun heq => ?_⟩
  have hle : 3 ≤ ss.length := (hnand (by decide)).1 heq
  exact absurd hle (by decide)

end BitPattern
