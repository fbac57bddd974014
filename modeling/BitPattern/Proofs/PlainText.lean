import BitPattern.Proofs.Scan

set_option autoImplicit false

namespace BitPattern

def shownChars : List Char := ['0', '1', '*', '?', 'x', 'X']

/-- Shows no bit and is no filling either. -/
def isForeign (c : Char) : Bool := !(isBlank c || c == '_' || shownChars.contains c)

def condense (text : List Char) : List Char := text.filter fun c => !(isBlank c || c == '_')

def shownBit (c : Char) : Trit :=
  if c = '0' then .zero else if c = '1' then .one else .unknown

theorem isForeign_eq (c : Char) : isForeign c = (!isFiller c && !shownChars.contains c) := by
  simp [isForeign, isFiller, Bool.or_comm]

theorem condense_eq (text : List Char) : condense text = text.filter (!isFiller ·) := by
  simp [condense, isFiller, Bool.or_comm]

theorem isFiller_of_mem_shownChars {c : Char} (h : c ∈ shownChars) : isFiller c = false := by
  have hall : shownChars.all (!isFiller ·) = true := by decide
  simpa using List.all_eq_true.1 hall c h

theorem Trit.ofSymbol?_eq (c : Char) :
    Trit.ofSymbol? c = if c ∈ shownChars then some (shownBit c) else none := by
  by_cases h0 : c = '0'
  · simp [h0, Trit.ofSymbol?, shownChars, shownBit]
  by_cases h1 : c = '1'
  · simp [h1, Trit.ofSymbol?, shownChars, shownBit]
  simp [Trit.ofSymbol?, shownChars, shownBit, unknownMarkers, h0, h1]

theorem Style.scan_plain_cons (c : Char) (cs : List Char) :
    Style.plain.scan (c :: cs) =
      if isFiller c then Style.plain.scan cs
      else if c ∈ shownChars then (shownBit c :: ·) <$> Style.plain.scan cs
      else .error (.invalidDigit c) := by
  -- a space and a star are taken as separator and marker first, which comes to the same
  by_cases hspace : c = ' '
  · subst hspace
    exact Style.plain.scan_separator cs
  have hs : startsWithWord Style.plain.separator (c :: cs) = false :=
    startsWithWord_of_head? (by simpa [Style.plain] using Ne.symm hspace) cs
  by_cases hstar : c = '*'
  · subst hstar
    exact Style.scan_marker (s := Style.plain) (List.cons_ne_nil '*' []) hs
  have hm : startsWithWord Style.plain.marker (c :: cs) = false :=
    startsWithWord_of_head? (by simpa [Style.plain] using Ne.symm hstar) cs
  rw [Style.scan_char hs hm, Trit.ofSymbol?_eq]
  by_cases hshown : c ∈ shownChars
  · simp [hshown, isFiller_of_mem_shownChars hshown]
  · simp [hshown]

theorem Style.scan_plain (text : List Char) :
    Style.plain.scan text =
      match text.find? isForeign with
      | some c => .error (.invalidDigit c)
      | none => .ok ((condense text).map shownBit) := by
  rw [condense_eq]
  induction text with
  | nil => simp
  | cons c cs ih =>
    rw [Style.scan_plain_cons, ih]
    by_cases hfill : isFiller c = true
    · simp [hfill, isForeign_eq]
    by_cases hshown : c ∈ shownChars
    · have hforeign : isForeign c = false := by simp [isForeign_eq, hshown]
      rw [List.find?_cons_of_neg (by simp [hforeign])]
      cases cs.find? isForeign <;> simp [hfill, hshown, Functor.map, Except.map]
    · simp [hfill, hshown, isForeign_eq]

theorem filter_trimBlanks {p : Char → Bool} (h : ∀ c, isBlank c = true → p c = false)
    (text : List Char) : (trimBlanks text).filter p = text.filter p := by
  have hdrop : ∀ cs : List Char, (cs.dropWhile isBlank).filter p = cs.filter p := by
    intro cs
    induction cs with
    | nil => rfl
    | cons c cs ih =>
      by_cases hc : isBlank c = true
      · simp [hc, h c hc, ih]
      · simp [hc]
  simp [trimBlanks, hdrop]

theorem condense_trimBlanks (text : List Char) : condense (trimBlanks text) = condense text :=
  filter_trimBlanks (fun _ hc => by simp [hc]) text

theorem find?_condense (text : List Char) :
    (condense text).find? isForeign = text.find? isForeign := by
  rw [condense_eq, List.find?_filter]
  congr 1
  funext c
  cases h : isFiller c <;> simp [isForeign_eq, h]

theorem Style.scan_plain_condense (text : List Char) :
    Style.plain.scan (condense text) = Style.plain.scan text := by
  have htwice : condense (condense text) = condense text := by simp [condense]
  rw [Style.scan_plain, Style.scan_plain, find?_condense, htwice]

theorem Style.scan_plain_trimBlanks (text : List Char) :
    Style.plain.scan (trimBlanks text) = Style.plain.scan text := by
  rw [← Style.scan_plain_condense, condense_trimBlanks, Style.scan_plain_condense]

theorem Style.read_plain_condense (text : List Char) (width : Nat) :
    Style.plain.read (condense text) width = Style.plain.read text width := by
  rw [Style.read, Style.read, Style.scan_plain_trimBlanks, Style.scan_plain_trimBlanks,
    Style.scan_plain_condense]

/-- A text in the plain style is refused for its first foreign character, then for showing nothing,
then for showing another number of bits; otherwise it reads as the bits that it shows, every group
of eight turned around. Where its filling stands never matters. All this holds exactly for the
widths that a buffer can have: past them the program stops, whatever the text. -/
theorem Style.read_plain (text : List Char) (width : Nat) :
    (width ≤ bufferLimit →
      (match text.find? isForeign with
        | some c => Style.plain.readBuffered text width = .answer (.error (.invalidDigit c))
        | none =>
          if condense text = [] then
            Style.plain.readBuffered text width = .answer (.error .empty)
          else if (condense text).length ≠ width then
            Style.plain.readBuffered text width =
              .answer (.error (.lengthMismatch width (condense text).length))
          else ∃ bits, OctetsFlipped ((condense text).map shownBit) bits ∧
            Style.plain.readBuffered text width = .answer (.ok bits)) ∧
        Style.plain.readBuffered (condense text) width =
          Style.plain.readBuffered text width) ∧
      (bufferLimit < width → Style.plain.readBuffered text width = .overflow) := by
  have hscan := Style.scan_plain text
  rw [← Style.scan_plain_trimBlanks] at hscan
  refine ⟨fun hroom => ⟨?_, ?_⟩, fun hlong => Style.readBuffered_of_lt hlong _ _⟩
  · cases hf : text.find? isForeign with
    | some c =>
      rw [hf] at hscan
      exact (Style.readBuffered_of_le hroom _ _).trans
        (congrArg Ending.answer (Style.read_of_scan_error hscan width))
    | none =>
      rw [hf] at hscan
      have hread := Style.readBuffered_of_scan_ok hscan hroom
      simpa only [List.map_eq_nil_iff, List.length_map] using hread
  · rw [Style.readBuffered_of_le hroom, Style.readBuffered_of_le hroom,
      Style.read_plain_condense]

theorem Style.read_plain_ten :
    let text := ['\t', '1', '0', '0', '0', '_', '0', '0', ' ', 'x', '0', ' ', '1', '*', '\n']
    10 ≤ bufferLimit ∧
      (∃ bits, OctetsFlipped ((condense text).map shownBit) bits ∧
        Style.plain.readBuffered text 10 = .answer (.ok bits)) ∧
      bufferLimit < lengthLimit ∧ Style.plain.readBuffered text lengthLimit = .overflow := by
  intro text
  have hroom : 10 ≤ bufferLimit := by decide
  have hlong : bufferLimit < lengthLimit := by decide
  have hread := ((Style.read_plain text 10).1 hroom).1
  have hforeign : text.find? isForeign = none := by decide
  simp only [hforeign] at hread
  rw [if_neg (by decide), if_neg (by decide)] at hread
  exact ⟨hroom, hread, hlong, (Style.read_plain text lengthLimit).2 hlong⟩

/-- Not every text of another number of bits is refused for that number. -/
theorem Style.not_forall_read_plain :
    ¬∀ (text : List Char) (width : Nat), width ≤ lengthLimit → text.find? isForeign = none →
      condense text ≠ [] → (condense text).length ≠ width →
        Style.plain.readBuffered text width =
          .answer (.error (.lengthMismatch width (condense text).length)) := by
  intro h
  have hone := h ['1'] lengthLimit (Nat.le_refl _) (by decide) (by decide) (by decide)
  rw [Style.readBuffered_of_lt (by decide)] at hone
  cases hone

end BitPattern
