import BitPattern.Proofs.Stored

set_option autoImplicit false

namespace BitPattern

theorem Word.value_ofNat {w n : Nat} (h : n < twoPow w) : (Word.ofNat n : Word w).value = n := by
  rw [Word.value_eq_toNat, Word.toNat_ofNat, Nat.mod_eq_of_lt h]

theorem orRefuse_eq_ok {α : Type} {x : Except Fault α} {a : α} :
    orRefuse x = .ok a ↔ x = .ok a := by
  cases x with
  | ok b => simp [orRefuse]
  | error f => exact ⟨nofun, nofun⟩

theorem Pattern.toWord_of_not_isComplete {w : Nat} {p : Pattern w} (h : p.isComplete = false) :
    ∃ i, IsLeast {j | j < w ∧ p.get j = .unknown} i ∧ p.toWord = .error (.unknownBit i) := by
  have hopen : p.isComplete ≠ true := by simp [h]
  have hleast := Pattern.isLeast_headD_unknownPositions hopen
  exact ⟨_, hleast, Pattern.toWord_eq_error.2 ⟨_, rfl, hleast⟩⟩

theorem Word.ofJson_eq_bind {w : Nat} {text s : List Char} (h : Json.Says text (.text s)) :
    (Word.ofJson text : Except Json.Fault (Word w)) =
      (Pattern.ofJson text).bind fun p => orRefuse p.toWord := by
  rw [Word.ofJson_of_says_text h, Pattern.ofJson_of_says_text h, Word.ofText]
  cases (Pattern.ofText .plain s : Except Fault (Pattern w)) <;> rfl

theorem Word.ofJson_eq_ok_iff {w : Nat} {text s : List Char} (h : Json.Says text (.text s))
    {a : Word w} : Word.ofJson text = .ok a ↔ Pattern.ofJson text = .ok (.ofWord a) := by
  rw [Word.ofJson_eq_bind h]
  cases Pattern.ofJson text with
  | ok p =>
    have hword : orRefuse p.toWord = .ok a ↔ p = .ofWord a :=
      orRefuse_eq_ok.trans Pattern.toWord_eq_ok
    rw [Except.bind, hword, Except.ok.injEq]
  | error f => exact ⟨nofun, nofun⟩

/-- A JSON number is read as the word of this value if there is one, as there always is from a width
of 64 on, and is refused otherwise. A JSON string is read as a word exactly when it is read as the
pattern of this word, and otherwise fails at the lowest bit that the pattern leaves open, or as the
pattern does. -/
theorem Word.json_forms (w : Nat) :
    (∀ n : Nat, n ≤ twoPow 64 - 1 → Json.Says (Nat.toDigits 10 n) (.integer n) ∧
        (64 ≤ w → n < twoPow w) ∧ ∀ text, Json.Says text (.integer n) →
          if n < twoPow w then ∃ a : Word w, Word.ofJson text = .ok a ∧ a.value = n
          else ∃ r, (Word.ofJson text : Except Json.Fault (Word w)) = .error (.refused r) ∧
            r.message = s!"value {n} does not fit in {w} bits") ∧
      ∀ s, Json.Says (Json.quote s) (.text s) ∧ ∀ text, Json.Says text (.text s) →
        (∀ a : Word w, Word.ofJson text = .ok a ↔ Pattern.ofJson text = .ok (.ofWord a)) ∧
          (∀ p : Pattern w, Pattern.ofJson text = .ok p → p.isComplete = false →
            ∃ i, IsLeast {j | j < w ∧ p.get j = .unknown} i ∧
              (Word.ofJson text : Except Json.Fault (Word w)) =
                .error (.refused (.fault (.unknownBit i)))) ∧
          ∀ f, (Pattern.ofJson text : Except Json.Fault (Pattern w)) = .error f →
            (Word.ofJson text : Except Json.Fault (Word w)) = .error f := by
  refine ⟨fun n hn => ⟨Json.says_toDigits hn, fun hw => ?_, fun text htext => ?_⟩,
    fun s => ⟨Json.says_quote s, fun text htext => ⟨?_, ?_, ?_⟩⟩⟩
  · have hpos : 0 < twoPow 64 := Nat.two_pow_pos 64
    have hle : twoPow 64 ≤ twoPow w := Nat.pow_le_pow_right Nat.two_pos hw
    omega
  · rw [Word.ofJson_of_says_integer htext]
    by_cases hfits : n < twoPow w
    · rw [if_pos hfits]
      exact ⟨_, Word.ofNumber_of_lt hfits, Word.value_ofNat hfits⟩
    · rw [if_neg hfits]
      exact ⟨_, Word.ofNumber_of_not_lt hn hfits, rfl⟩
  · intro a
    exact Word.ofJson_eq_ok_iff htext
  · intro p hp hopen
    obtain ⟨i, hleast, hi⟩ := Pattern.toWord_of_not_isComplete hopen
    refine ⟨i, hleast, ?_⟩
    rw [Word.ofJson_eq_bind htext, hp, Except.bind, hi]
    rfl
  · intro f hf
    rw [Word.ofJson_eq_bind htext, hf]
    rfl

theorem Word.json_forms_eight :
    let number := [' ', '2', '5', '6', '\n']
    let p : Pattern 8 := ⟨[.one, .one, .zero, .unknown, .zero, .zero, .zero, .zero], rfl⟩
    256 ≤ twoPow 64 - 1 ∧ Json.Says number (.integer 256) ∧
      (∃ r, (Word.ofJson number : Except Json.Fault (Word 8)) = .error (.refused r) ∧
        r.message = "value 256 does not fit in 8 bits") ∧
      Json.Says p.toJson (.text p.text) ∧ Pattern.ofJson p.toJson = .ok p ∧
      p.isComplete = false ∧ ∃ i, IsLeast {j | j < 8 ∧ p.get j = .unknown} i ∧
        (Word.ofJson p.toJson : Except Json.Fault (Word 8)) =
          .error (.refused (.fault (.unknownBit i))) := by
  intro number p
  have hlimit : 256 ≤ twoPow 64 - 1 := by decide
  have hnumber : Json.Says number (.integer 256) := ⟨['\n'], rfl, rfl⟩
  have htext : Json.Says p.toJson (.text p.text) := Json.says_quote p.text
  have hread : Pattern.ofJson p.toJson = .ok p := by
    rw [Pattern.ofJson_of_says_text htext, p.ofText_text, if_neg (by decide)]
    rfl
  obtain ⟨hnumbers, htexts⟩ := Word.json_forms 8
  exact ⟨hlimit, hnumber, (hnumbers 256 hlimit).2.2 number hnumber, htext, hread, rfl,
    ((htexts p.text).2 p.toJson htext).2.1 p hread rfl⟩

end BitPattern
