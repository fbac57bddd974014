import BitPattern.Style.Reader

/-!
The reader one step at a time, whatever text follows: past a separator, a marker, or a single
character. A word is safe from another one when neither begins with the other, for then no text
begins with both.
-/

set_option autoImplicit false

namespace BitPattern

theorem startsWithWord_iff {word text : List Char} :
    startsWithWord word text = true ↔ word ≠ [] ∧ word <+: text := by
  simp [startsWithWord]

theorem startsWithWord_append {word : List Char} (h : word ≠ []) (rest : List Char) :
    startsWithWord word (word ++ rest) = true :=
  startsWithWord_iff.2 ⟨h, List.prefix_append word rest⟩

theorem startsWithWord_of_head? {word : List Char} {c : Char} (h : word.head? ≠ some c)
    (rest : List Char) : startsWithWord word (c :: rest) = false := by
  cases word with
  | nil => rfl
  | cons d ds =>
    have hdc : d ≠ c := by simpa using h
    simp [startsWithWord, List.isPrefixOf, hdc]

def Diverge (a b : List Char) : Prop := ¬a <+: b ∧ ¬b <+: a

instance (a b : List Char) : Decidable (Diverge a b) :=
  inferInstanceAs (Decidable (¬a <+: b ∧ ¬b <+: a))

theorem startsWithWord_of_diverge {word text : List Char} (h : Diverge word text)
    (rest : List Char) : startsWithWord word (text ++ rest) = false := by
  rw [Bool.eq_false_iff]
  intro hw
  have hp := (startsWithWord_iff.1 hw).2
  cases List.prefix_or_prefix_of_prefix hp (List.prefix_append text rest) with
  | inl hwt => exact h.1 hwt
  | inr htw => exact h.2 htw

@[simp] theorem Style.scan_nil (s : Style) : s.scan [] = .ok [] := by rw [Style.scan]

theorem Style.scan_separator (s : Style) (rest : List Char) :
    s.scan (s.separator ++ rest) = s.scan rest := by
  cases hs : s.separator with
  | nil => rfl
  | cons c cs =>
    have hstart := startsWithWord_append (List.cons_ne_nil c cs) rest
    rw [List.cons_append] at hstart ⊢
    rw [Style.scan, hs, if_pos hstart]
    simp

theorem Style.scan_marker {s : Style} {rest : List Char} (hm : s.marker ≠ [])
    (hs : startsWithWord s.separator (s.marker ++ rest) = false) :
    s.scan (s.marker ++ rest) = (.unknown :: ·) <$> s.scan rest := by
  have hstart := startsWithWord_append hm rest
  cases h : s.marker with
  | nil => exact absurd h hm
  | cons c cs =>
    rw [h, List.cons_append] at hs hstart
    rw [List.cons_append, Style.scan, hs, h, hstart]
    simp

theorem Style.scan_char {s : Style} {c : Char} {rest : List Char}
    (hs : startsWithWord s.separator (c :: rest) = false)
    (hm : startsWithWord s.marker (c :: rest) = false) :
    s.scan (c :: rest) =
      match Trit.ofSymbol? c with
      | some t => (t :: ·) <$> s.scan rest
      | none => if isFiller c then s.scan rest else .error (.invalidDigit c) := by
  rw [Style.scan, hs, hm]
  cases Trit.ofSymbol? c <;> simp

theorem Style.read_of_scan_error {s : Style} {text : List Char} {f : Fault}
    (h : s.scan (trimBlanks text) = .error f) (width : Nat) : s.read text width = .error f := by
  rw [Style.read, h]
  rfl

theorem Style.read_of_scan_ok {s : Style} {text : List Char} {bits : List Trit}
    (h : s.scan (trimBlanks text) = .ok bits) (width : Nat) :
    s.read text width =
      if bits = [] then .error .empty
      else if bits.length ≠ width then .error (.lengthMismatch width bits.length)
      else .ok (flipOctets bits) := by
  simp [Style.read, h, bind, Except.bind, pure, Except.pure]

theorem Style.readBuffered_of_le {width : Nat} (h : width ≤ bufferLimit) (s : Style)
    (text : List Char) : s.readBuffered text width = .answer (s.read text width) := if_pos h

theorem Style.readBuffered_of_lt {width : Nat} (h : bufferLimit < width) (s : Style)
    (text : List Char) : s.readBuffered text width = .overflow := if_neg (Nat.not_le.2 h)

/-- The bits that a text shows are refused for being none or another number, or turned around group
by group. -/
theorem Style.readBuffered_of_scan_ok {s : Style} {text : List Char} {bits : List Trit}
    {width : Nat} (h : s.scan (trimBlanks text) = .ok bits) (hroom : width ≤ bufferLimit) :
    if bits = [] then s.readBuffered text width = .answer (.error .empty)
    else if bits.length ≠ width then
      s.readBuffered text width = .answer (.error (.lengthMismatch width bits.length))
    else ∃ flipped, OctetsFlipped bits flipped ∧
      s.readBuffered text width = .answer (.ok flipped) := by
  simp only [Style.readBuffered_of_le hroom, Style.read_of_scan_ok h, octetsFlipped_iff,
    exists_eq_left']
  by_cases hempty : bits = []
  · simp [hempty]
  by_cases hwidth : bits.length = width
  · simp [hempty, hwidth]
  · simp [hempty, hwidth]

/-- A text that begins and ends with characters that are not blank. -/
def Solid (text : List Char) : Prop :=
  (∃ c, text.head? = some c ∧ isBlank c = false) ∧ ∃ c, text.getLast? = some c ∧ isBlank c = false

instance (text : List Char) : Decidable (Solid text) :=
  decidable_of_iff (text.head?.any (!isBlank ·) = true ∧ text.getLast?.any (!isBlank ·) = true)
    (by simp [Solid, Option.any_eq_true])

theorem Solid.ne_nil {text : List Char} (h : Solid text) : text ≠ [] := by
  obtain ⟨⟨c, hc, -⟩, -⟩ := h
  intro ht
  simp [ht] at hc

theorem Solid.append {a b : List Char} (ha : Solid a) (hb : Solid b) (middle : List Char) :
    Solid (a ++ middle ++ b) := by
  obtain ⟨⟨c, hc, hcb⟩, -⟩ := ha
  obtain ⟨-, d, hd, hdb⟩ := hb
  exact ⟨⟨c, by simp [hc], hcb⟩, d, by simp [hd], hdb⟩

theorem dropWhile_isBlank {text : List Char} {c : Char} (h : text.head? = some c)
    (hc : isBlank c = false) : text.dropWhile isBlank = text := by
  obtain ⟨cs, rfl⟩ := List.head?_eq_some_iff.1 h
  simp [hc]

theorem trimBlanks_of_solid {text : List Char} (h : Solid text) : trimBlanks text = text := by
  obtain ⟨⟨c, hc, hcb⟩, d, hd, hdb⟩ := h
  have hback := dropWhile_isBlank ((List.head?_reverse).trans hd) hdb
  rw [trimBlanks, dropWhile_isBlank hc hcb, hback, List.reverse_reverse]

end BitPattern
