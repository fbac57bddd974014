import BitPattern.Proofs.PlainText

/-!
Texts put together from tokens in any order. Where the marker and the separator each begin with a
character of their own and neither begins with the other, the reader meets the tokens one by one,
whatever their words hold further on. Cutting off the blanks at the ends cuts off whole tokens.
-/

set_option autoImplicit false

namespace BitPattern

inductive Token where
  | zero
  | one
  | wildcard (c : {c : Char // c ∈ unknownMarkers})
  | marker
  | separator
  | underscore
  | blank (c : {c : Char // isBlank c = true})

def Style.spell (s : Style) : Token → List Char
  | .zero => ['0']
  | .one => ['1']
  | .wildcard c => [c.val]
  | .marker => s.marker
  | .separator => s.separator
  | .underscore => ['_']
  | .blank c => [c.val]

def Token.bit? : Token → Option Trit
  | .zero => some .zero
  | .one => some .one
  | .wildcard _ | .marker => some .unknown
  | .separator | .underscore | .blank _ => none

def Token.isBlank : Token → Bool
  | .blank _ => true
  | _ => false

def isSingle (c : Char) : Bool :=
  c == '0' || c == '1' || c == '_' || isBlank c || unknownMarkers.contains c

/-- A word that begins with no token of a single character and does not end with a blank. -/
def Distinctive (word : List Char) : Prop :=
  (∃ c, word.head? = some c ∧ isSingle c = false) ∧ ∃ c, word.getLast? = some c ∧ isBlank c = false

instance (word : List Char) : Decidable (Distinctive word) :=
  decidable_of_iff (word.head?.any (!isSingle ·) = true ∧ word.getLast?.any (!isBlank ·) = true)
    (by simp [Distinctive, Option.any_eq_true])

/-- What a style has to keep to for its tokens to be told apart in any order. -/
structure Style.Lexical (s : Style) : Prop where
  marker : Distinctive s.marker
  separator : Distinctive s.separator
  apart : Diverge s.separator s.marker

instance (s : Style) : Decidable s.Lexical :=
  decidable_of_iff (Distinctive s.marker ∧ Distinctive s.separator ∧ Diverge s.separator s.marker)
    ⟨fun ⟨h₁, h₂, h₃⟩ => ⟨h₁, h₂, h₃⟩, fun ⟨h₁, h₂, h₃⟩ => ⟨h₁, h₂, h₃⟩⟩

theorem Distinctive.solid {word : List Char} (h : Distinctive word) : Solid word := by
  obtain ⟨⟨c, hc, hsingle⟩, hlast⟩ := h
  have hblank : isBlank c = false := by
    simp only [isSingle, Bool.or_eq_false_iff] at hsingle
    exact hsingle.1.2
  exact ⟨⟨c, hc, hblank⟩, hlast⟩

theorem Distinctive.startsWithWord_single {word : List Char} (h : Distinctive word) {c : Char}
    (hc : isSingle c = true) (rest : List Char) : startsWithWord word (c :: rest) = false := by
  obtain ⟨⟨d, hd, hsingle⟩, -⟩ := h
  refine startsWithWord_of_head? ?_ rest
  intro hhead
  rw [hd] at hhead
  cases hhead
  rw [hc] at hsingle
  cases hsingle

theorem Style.Lexical.scan_single {s : Style} (h : s.Lexical) {c : Char} (hc : isSingle c = true)
    (rest : List Char) :
    s.scan (c :: rest) =
      match Trit.ofSymbol? c with
      | some t => (t :: ·) <$> s.scan rest
      | none => if isFiller c then s.scan rest else .error (.invalidDigit c) :=
  Style.scan_char (h.separator.startsWithWord_single hc rest)
    (h.marker.startsWithWord_single hc rest)

theorem Trit.ofSymbol?_wildcard {c : Char} (h : c ∈ unknownMarkers) :
    Trit.ofSymbol? c = some .unknown := by
  have hall : unknownMarkers.all (Trit.ofSymbol? · == some .unknown) = true := by decide
  simpa using List.all_eq_true.1 hall c h

theorem Trit.ofSymbol?_blank {c : Char} (h : isBlank c = true) : Trit.ofSymbol? c = none := by
  rw [Trit.ofSymbol?_eq, if_neg]
  intro hshown
  have hfiller := isFiller_of_mem_shownChars hshown
  simp [isFiller, h] at hfiller

theorem Style.Lexical.scan_token {s : Style} (h : s.Lexical) (t : Token) (rest : List Char) :
    s.scan (s.spell t ++ rest) = (t.bit?.toList ++ ·) <$> s.scan rest := by
  cases t with
  | zero => exact h.scan_single (by decide) rest
  | one => exact h.scan_single (by decide) rest
  | wildcard c =>
    refine (h.scan_single (c := c.val) ?_ rest).trans ?_
    · simp [isSingle, c.property]
    · rw [Trit.ofSymbol?_wildcard c.property]
      rfl
  | marker =>
    exact Style.scan_marker h.marker.solid.ne_nil (startsWithWord_of_diverge h.apart rest)
  | separator => simp [Style.spell, Token.bit?, Style.scan_separator]
  | underscore =>
    refine (h.scan_single (by decide) rest).trans ?_
    simp [Token.bit?, Trit.ofSymbol?, unknownMarkers, isFiller]
  | blank c =>
    refine (h.scan_single (c := c.val) ?_ rest).trans ?_
    · simp [isSingle, c.property]
    · simp [Token.bit?, Trit.ofSymbol?_blank c.property, isFiller, c.property]

theorem Style.Lexical.scan_tokens {s : Style} (h : s.Lexical) (ts : List Token) :
    s.scan (ts.flatMap s.spell) = .ok (ts.filterMap Token.bit?) := by
  induction ts with
  | nil => exact s.scan_nil
  | cons t ts ih =>
    rw [List.flatMap_cons, h.scan_token, ih]
    cases ht : t.bit? <;> simp [ht, Functor.map, Except.map]

theorem dropWhile_flatMap {f : Token → List Char}
    (hblank : ∀ t, t.isBlank = true → ∃ c, f t = [c] ∧ isBlank c = true)
    (hsolid : ∀ t, t.isBlank = false → ∃ c, (f t).head? = some c ∧ isBlank c = false)
    (ts : List Token) :
    (ts.flatMap f).dropWhile isBlank = (ts.dropWhile Token.isBlank).flatMap f := by
  induction ts with
  | nil => rfl
  | cons t ts ih =>
    cases ht : t.isBlank with
    | true =>
      obtain ⟨c, hc, hcb⟩ := hblank t ht
      simp [hc, hcb, ht, ih]
    | false =>
      obtain ⟨c, hc, hcb⟩ := hsolid t ht
      rw [List.dropWhile_cons_of_neg (by simp [ht])]
      exact dropWhile_isBlank (by simp [hc]) hcb

def trimTokens (ts : List Token) : List Token :=
  ((ts.dropWhile Token.isBlank).reverse.dropWhile Token.isBlank).reverse

theorem Style.spell_blank (s : Style) {t : Token} (h : t.isBlank = true) :
    ∃ c, s.spell t = [c] ∧ isBlank c = true := by
  cases t with
  | blank c => exact ⟨c.val, rfl, c.property⟩
  | _ => cases h

theorem Style.Lexical.solid_spell {s : Style} (h : s.Lexical) {t : Token}
    (ht : t.isBlank = false) : Solid (s.spell t) := by
  cases t with
  | zero => exact (by decide : Solid ['0'])
  | one => exact (by decide : Solid ['1'])
  | wildcard c =>
    have hall : unknownMarkers.all (!isBlank ·) = true := by decide
    have hc : isBlank c.val = false := by simpa using List.all_eq_true.1 hall c.val c.property
    exact ⟨⟨c.val, rfl, hc⟩, c.val, rfl, hc⟩
  | marker => exact h.marker.solid
  | separator => exact h.separator.solid
  | underscore => exact (by decide : Solid ['_'])
  | blank c => cases ht

theorem Style.Lexical.trimBlanks_tokens {s : Style} (h : s.Lexical) (ts : List Token) :
    trimBlanks (ts.flatMap s.spell) = (trimTokens ts).flatMap s.spell := by
  have hfront := dropWhile_flatMap (fun _ => s.spell_blank) (fun _ ht => (h.solid_spell ht).1) ts
  have hback := dropWhile_flatMap (f := List.reverse ∘ s.spell)
    (fun t ht => by
      obtain ⟨c, hc, hcb⟩ := s.spell_blank ht
      exact ⟨c, by simp [hc], hcb⟩)
    (fun t ht => by
      obtain ⟨c, hc, hcb⟩ := (h.solid_spell ht).2
      exact ⟨c, by simp [hc], hcb⟩)
    (ts.dropWhile Token.isBlank).reverse
  rw [trimBlanks, hfront, List.reverse_flatMap, hback, List.reverse_flatMap, trimTokens]
  simp [Function.comp_def]

theorem filterMap_dropWhile_isBlank (ts : List Token) :
    (ts.dropWhile Token.isBlank).filterMap Token.bit? = ts.filterMap Token.bit? := by
  induction ts with
  | nil => rfl
  | cons t ts ih =>
    cases t with
    | blank c => exact ih
    | _ => rfl

theorem filterMap_trimTokens (ts : List Token) :
    (trimTokens ts).filterMap Token.bit? = ts.filterMap Token.bit? := by
  rw [trimTokens, List.filterMap_reverse, filterMap_dropWhile_isBlank, ← List.filterMap_reverse,
    List.reverse_reverse, filterMap_dropWhile_isBlank]

/-- A text of tokens reads as the bits that its tokens show, every group of eight turned around; it
is refused for showing nothing, then for showing another number of bits. This holds exactly for the
widths that a buffer can have. -/
theorem Style.read_tokens {s : Style} (h : s.Lexical) (ts : List Token) (width : Nat) :
    (width ≤ bufferLimit →
      if ts.filterMap Token.bit? = [] then
        s.readBuffered (ts.flatMap s.spell) width = .answer (.error .empty)
      else if (ts.filterMap Token.bit?).length ≠ width then
        s.readBuffered (ts.flatMap s.spell) width =
          .answer (.error (.lengthMismatch width (ts.filterMap Token.bit?).length))
      else ∃ bits, OctetsFlipped (ts.filterMap Token.bit?) bits ∧
        s.readBuffered (ts.flatMap s.spell) width = .answer (.ok bits)) ∧
      (bufferLimit < width → s.readBuffered (ts.flatMap s.spell) width = .overflow) := by
  have hscan : s.scan (trimBlanks (ts.flatMap s.spell)) = .ok (ts.filterMap Token.bit?) := by
    rw [h.trimBlanks_tokens, h.scan_tokens, filterMap_trimTokens]
  exact ⟨Style.readBuffered_of_scan_ok hscan, fun hlong => Style.readBuffered_of_lt hlong _ _⟩

-- The two words begin alike, and both hold a digit, an underscore and a blank further on.
theorem Style.read_tokens_alike :
    let s : Style := ⟨['«', '0', '_', ' ', '»'], ['«', '0', '_', ' ', '1', '»']⟩
    let ts : List Token :=
      [.blank ⟨' ', rfl⟩, .separator, .one, .marker, .wildcard ⟨'?', by decide⟩, .underscore, .zero,
        .zero, .separator, .zero, .zero, .blank ⟨'\t', rfl⟩, .zero, .one, .separator, .marker,
        .blank ⟨' ', rfl⟩]
    s.Lexical ∧ 10 ≤ bufferLimit ∧ s.readBuffered (ts.flatMap s.spell) 10 = .answer
      (.ok [.zero, .zero, .zero, .zero, .zero, .unknown, .unknown, .one, .unknown, .one]) ∧
      bufferLimit < lengthLimit ∧
      s.readBuffered (ts.flatMap s.spell) lengthLimit = .overflow := by
  intro s ts
  have hs : s.Lexical := by decide
  have hroom : 10 ≤ bufferLimit := by decide
  have hlong : bufferLimit < lengthLimit := by decide
  have hread := (Style.read_tokens hs ts 10).1 hroom
  rw [if_neg (by decide), if_neg (by decide)] at hread
  obtain ⟨bits, hbits, hread⟩ := hread
  rw [octetsFlipped_iff] at hbits
  exact ⟨hs, hroom,
    hread.trans (congrArg (Ending.answer ∘ Except.ok) (hbits.symm.trans (by decide))), hlong,
    (Style.read_tokens hs ts lengthLimit).2 hlong⟩

theorem Style.not_forall_read_tokens :
    ¬∀ (s : Style) (ts : List Token) (width : Nat), s.Lexical → width ≤ lengthLimit →
      ts.filterMap Token.bit? ≠ [] → (ts.filterMap Token.bit?).length ≠ width →
        s.readBuffered (ts.flatMap s.spell) width =
          .answer (.error (.lengthMismatch width (ts.filterMap Token.bit?).length)) := by
  intro h
  have htwo := h ⟨['u'], [':']⟩ [.marker, .separator, .one] lengthLimit (by decide)
    (Nat.le_refl _) (by decide) (by decide)
  rw [Style.readBuffered_of_lt (by decide)] at htwo
  cases htwo

end BitPattern
