import BitPattern.Proofs.Scan

set_option autoImplicit false

namespace BitPattern

/-- What a style has to keep to for its texts to be read back. -/
structure Style.Legible (s : Style) : Prop where
  marker_solid : Solid s.marker
  marker_head : s.marker.head? ≠ some '0' ∧ s.marker.head? ≠ some '1'
  separator_head : s.separator.head? ≠ some '0' ∧ s.separator.head? ≠ some '1'
  apart : s.separator = [] ∨ Diverge s.separator s.marker

instance (s : Style) : Decidable s.Legible :=
  decidable_of_iff
    (Solid s.marker ∧ (s.marker.head? ≠ some '0' ∧ s.marker.head? ≠ some '1') ∧
      (s.separator.head? ≠ some '0' ∧ s.separator.head? ≠ some '1') ∧
      (s.separator = [] ∨ Diverge s.separator s.marker))
    ⟨fun ⟨h₁, h₂, h₃, h₄⟩ => ⟨h₁, h₂, h₃, h₄⟩, fun ⟨h₁, h₂, h₃, h₄⟩ => ⟨h₁, h₂, h₃, h₄⟩⟩

theorem Style.Legible.solid_bit {s : Style} (h : s.Legible) (t : Trit) : Solid (s.bit t) := by
  cases t with
  | zero => exact (by decide : Solid ['0'])
  | one => exact (by decide : Solid ['1'])
  | unknown => exact h.marker_solid

theorem Style.Legible.solid_bits {s : Style} (h : s.Legible) {ts : List Trit} (ht : ts ≠ []) :
    Solid (ts.map s.bit).flatten := by
  induction ts with
  | nil => exact absurd rfl ht
  | cons t ts ih =>
    cases ts with
    | nil => simpa using h.solid_bit t
    | cons u us => simpa using (h.solid_bit t).append (ih (List.cons_ne_nil u us)) []

theorem Style.Legible.solid_group {s : Style} (h : s.Legible) {bits : List Trit}
    (hb : bits ≠ []) : Solid (s.group bits).flatten :=
  h.solid_bits (by simpa using hb)

theorem Style.Legible.solid_render {s : Style} (h : s.Legible) {bits : List Trit}
    (hb : bits ≠ []) : Solid (s.render bits) := by
  induction bits using octets_induction with
  | last bits hle =>
    rw [Style.render_of_length_le hle]
    exact h.solid_group hb
  | group xs ys hx hy ih =>
    have hxs : xs ≠ [] := List.ne_nil_of_length_pos (by omega)
    rw [Style.render_append_of_length_eq hx hy]
    exact (h.solid_group hxs).append (ih hy) s.separator

theorem Style.Legible.scan_bit {s : Style} (h : s.Legible) (t : Trit) (rest : List Char) :
    s.scan (s.bit t ++ rest) = (t :: ·) <$> s.scan rest := by
  cases t with
  | zero =>
    exact Style.scan_char (startsWithWord_of_head? h.separator_head.1 rest)
      (startsWithWord_of_head? h.marker_head.1 rest)
  | one =>
    exact Style.scan_char (startsWithWord_of_head? h.separator_head.2 rest)
      (startsWithWord_of_head? h.marker_head.2 rest)
  | unknown =>
    refine Style.scan_marker h.marker_solid.ne_nil ?_
    cases h.apart with
    | inl hs => rw [hs]; rfl
    | inr hs => exact startsWithWord_of_diverge hs rest

theorem Style.Legible.scan_bits {s : Style} (h : s.Legible) (ts : List Trit) (rest : List Char) :
    s.scan ((ts.map s.bit).flatten ++ rest) = (ts ++ ·) <$> s.scan rest := by
  induction ts with
  | nil => simp
  | cons t ts ih => simp [h.scan_bit, ih, Functor.map_map]

theorem Style.Legible.scan_group {s : Style} (h : s.Legible) (bits : List Trit)
    (rest : List Char) :
    s.scan ((s.group bits).flatten ++ rest) = (bits.reverse ++ ·) <$> s.scan rest :=
  h.scan_bits bits.reverse rest

theorem Style.Legible.scan_render {s : Style} (h : s.Legible) (bits : List Trit) :
    s.scan (s.render bits) = .ok (flipOctets bits) := by
  induction bits using octets_induction with
  | last bits hle =>
    have hgroup := h.scan_group bits []
    rw [List.append_nil, Style.scan_nil] at hgroup
    rw [Style.render_of_length_le hle, hgroup, flipOctets_of_length_le hle]
    exact congrArg Except.ok (List.append_nil bits.reverse)
  | group xs ys hx hy ih =>
    rw [Style.render_append_of_length_eq hx hy, List.append_assoc, h.scan_group,
      Style.scan_separator, ih, flipOctets_append_of_length_eq hx]
    rfl

theorem Style.Legible.read_render_eq {s : Style} (h : s.Legible) (bits : List Trit) :
    s.read (s.render bits) bits.length = if bits = [] then .error .empty else .ok bits := by
  have htrim : trimBlanks (s.render bits) = s.render bits := by
    by_cases hb : bits = []
    · subst hb
      rfl
    · exact trimBlanks_of_solid (h.solid_render hb)
  have hscan := h.scan_render bits
  have hempty : flipOctets bits = [] ↔ bits = [] := by
    rw [← List.length_eq_zero_iff, length_flipOctets, List.length_eq_zero_iff]
  rw [← htrim] at hscan
  simp [Style.read_of_scan_ok hscan, hempty]

/-- In a legible style every text that shows some bits is read back as these bits, into any buffer
that can hold them. -/
theorem Style.read_render {s : Style} (h : s.Legible) {bits : List Trit} (hb : bits ≠ []) :
    s.read (s.render bits) bits.length = .ok bits ∧
      (bits.length ≤ bufferLimit →
        s.readBuffered (s.render bits) bits.length = .answer (.ok bits)) := by
  have hread : s.read (s.render bits) bits.length = .ok bits := by
    rw [h.read_render_eq, if_neg hb]
  refine ⟨hread, fun hroom => ?_⟩
  rw [Style.readBuffered_of_le hroom, hread]

-- The marker holds a digit, a blank and an underscore, and the separator begins as it does.
theorem Style.read_render_alike :
    let s : Style := ⟨['x', '_', '0', ' ', '-'], ['x', '_', '1', ' ']⟩
    let bits : List Trit := [.unknown, .zero, .one, .unknown, .one, .zero, .zero, .one, .unknown]
    s.Legible ∧ bits ≠ [] ∧ s.read (s.render bits) bits.length = .ok bits ∧
      bits.length ≤ bufferLimit ∧
      s.readBuffered (s.render bits) bits.length = .answer (.ok bits) := by
  intro s bits
  have hs : s.Legible := by decide
  have hne : bits ≠ [] := by decide
  have hroom : bits.length ≤ bufferLimit := by decide
  exact ⟨hs, hne, (Style.read_render hs hne).1, hroom, (Style.read_render hs hne).2 hroom⟩

end BitPattern
