import BitPattern.Proofs.Bytes
import BitPattern.Word.Text

/-!
The numerals of a word. A numeral is read digit by digit, and what the binary and the hexadecimal
numerals, the bytes and the groups of the plain text say is always the same number.
-/

set_option autoImplicit false

namespace BitPattern

def Radix.base : Radix → Nat
  | .binary => 2
  | .lowerHex | .upperHex => 16

/-- A decimal digit, or a letter that counts on from ten. -/
def hexDigit? (first last : Char) (c : Char) : Option Nat :=
  if '0' ≤ c ∧ c ≤ '9' then some (c.toNat - '0'.toNat)
  else if first ≤ c ∧ c ≤ last then some (c.toNat - first.toNat + 10)
  else none

def Radix.digit? : Radix → Char → Option Nat
  | .binary, c => if c = '0' then some 0 else if c = '1' then some 1 else none
  | .lowerHex, c => hexDigit? 'a' 'f' c
  | .upperHex, c => hexDigit? 'A' 'F' c

/-- The number that a numeral stands for, its highest digit first. -/
def Radix.read? (r : Radix) (text : List Char) : Option Nat :=
  (text.mapM r.digit?).map fun ds => Nat.ofDigits r.base ds.reverse

theorem Radix.read?_map {α : Type} {r : Radix} {write : α → Char} {value : α → Nat} {xs : List α}
    (h : ∀ x ∈ xs, r.digit? (write x) = some (value x)) :
    r.read? (xs.map write) = some (Nat.ofDigits r.base (xs.map value).reverse) := by
  have hdigits : (xs.map write).mapM r.digit? = some (xs.map value) := by
    induction xs with
    | nil => rfl
    | cons x xs ih =>
      have hx := h x List.mem_cons_self
      have hxs := ih fun y hy => h y (List.mem_cons_of_mem x hy)
      simp [hx, hxs]
  rw [Radix.read?, hdigits, Option.map_some]

def bitDigits (bs : List Bool) : List Char := bs.reverse.map fun b => if b then '1' else '0'

theorem read?_bitDigits (bs : List Bool) :
    Radix.binary.read? (bitDigits bs) = some (fromBits bs) := by
  have hbit : ∀ b ∈ bs.reverse, Radix.binary.digit? (if b then '1' else '0') = some b.toNat := by
    intro b _
    cases b <;> rfl
  rw [bitDigits, Radix.read?_map hbit, fromBits_eq_ofDigits, List.map_reverse, List.reverse_reverse]
  rfl

theorem flatten_reverse_bitDigits (gs : List (List Bool)) :
    (gs.map bitDigits).reverse.flatten = bitDigits gs.flatten := by
  induction gs with
  | nil => rfl
  | cons g gs ih => simp [bitDigits, ih]

theorem ofDigits_halves (bytes : List UInt8) :
    Nat.ofDigits 16 (bytes.flatMap fun byte => [byte.toNat % 16, byte.toNat / 16]) =
      Nat.ofDigits 256 (bytes.map UInt8.toNat) := by
  induction bytes with
  | nil => rfl
  | cons byte bytes ih =>
    have hhalves := Nat.mod_add_div byte.toNat 16
    simp only [List.flatMap_cons, List.cons_append, List.nil_append, List.map_cons,
      Nat.ofDigits_cons, ih]
    omega

theorem read?_hexDigits {r : Radix} {digits : List Char} (hbase : r.base = 16)
    (hdigits : ∀ n < 16, r.digit? (digits.getD n '0') = some n) (bytes : List UInt8) :
    r.read? (hexDigits digits bytes) = some (Nat.ofDigits 256 (bytes.map UInt8.toNat)) := by
  have hwritten : hexDigits digits bytes =
      (bytes.reverse.flatMap fun byte => [byte.toNat / 16, byte.toNat % 16]).map
        (digits.getD · '0') := by
    simp [hexDigits, List.map_flatMap]
  have hhalf : ∀ n ∈ bytes.reverse.flatMap fun byte => [byte.toNat / 16, byte.toNat % 16],
      r.digit? (digits.getD n '0') = some (id n) := by
    intro n hn
    obtain ⟨byte, -, hn⟩ := List.mem_flatMap.1 hn
    have hbyte := byte.toNat_lt
    apply hdigits
    simp only [List.mem_cons, List.not_mem_nil, or_false] at hn
    omega
  rw [hwritten, Radix.read?_map hhalf, hbase, List.map_id, List.reverse_flatMap, ← ofDigits_halves]
  simp [Function.comp_def]

theorem Word.read?_digits {w : Nat} (a : Word w) (r : Radix) :
    r.read? (a.digits r) = some a.value := by
  have hbytes : Nat.ofDigits 256 (a.toBytes.map UInt8.toNat) = a.value := by
    rw [a.map_toNat_toBytes, ofDigits_octets, a.value_eq_toNat]
    rfl
  cases r with
  | binary =>
    rw [a.value_eq_toNat]
    exact read?_bitDigits a.toList
  | lowerHex => rw [← hbytes]; exact read?_hexDigits rfl (by decide) a.toBytes
  | upperHex => rw [← hbytes]; exact read?_hexDigits rfl (by decide) a.toBytes

theorem Word.length_digits_binary {w : Nat} (a : Word w) : (a.digits .binary).length = w := by
  simp [Word.digits, a.length_toList]

theorem length_hexDigits (digits : List Char) (bytes : List UInt8) :
    (hexDigits digits bytes).length = 2 * bytes.length := by
  simp [hexDigits, List.length_flatMap]
  omega

theorem flatten_group_plain (bs : List Bool) :
    (Style.plain.group (bs.map Trit.ofBool)).flatten = bitDigits bs := by
  have hbit : ∀ b, Style.plain.bit (.ofBool b) = [if b then '1' else '0'] := by
    intro b
    cases b <;> rfl
  rw [Style.group, ← List.map_reverse, List.map_map, bitDigits]
  induction bs.reverse with
  | nil => rfl
  | cons b bs ih => simp [hbit, ih]

theorem Word.text_eq_intercalate {w : Nat} (a : Word w) :
    a.text = [' '].intercalate ((octets a.toList).map bitDigits) := by
  rw [Word.text, Style.render_eq_intercalate, octets_map]
  simp only [List.map_map, Function.comp_def, flatten_group_plain]
  rfl

example : (Word.ofNat 0xA35 : Word 12).text = "00110101 1010".toList := by decide

theorem Word.splitOn_text {w : Nat} (hw : 0 < w) (a : Word w) :
    a.text.splitOn ' ' = (octets a.toList).map bitDigits := by
  have hblank : ∀ g ∈ (octets a.toList).map bitDigits, ' ' ∉ g := by
    intro g hg hmem
    obtain ⟨bs, -, rfl⟩ := List.mem_map.1 hg
    obtain ⟨b, -, hb⟩ := List.mem_map.1 hmem
    cases b <;> cases hb
  have hne : (octets a.toList).map bitDigits ≠ [] := by
    apply List.ne_nil_of_length_pos
    rw [List.length_map, length_octets, a.length_toList, octetCount]
    omega
  rw [a.text_eq_intercalate, List.splitOn_intercalate ' ' hblank hne]

theorem Word.getElem?_splitOn_text {w : Nat} (hw : 0 < w) (a : Word w) {j : Nat}
    (hj : j < octetCount w) : (a.text.splitOn ' ')[j]? =
      some (bitDigits ((a.toList.drop (8 * j)).take 8)) := by
  have hlength : j < (octets a.toList).length := by rwa [length_octets, a.length_toList]
  rw [a.splitOn_text hw, List.getElem?_map, ← getD_octets, List.getD_eq_getElem?_getD,
    List.getElem?_eq_getElem hlength]
  rfl

/-- All numerals of a word denote the same number, of which the bytes are the digits to the base
256. The plain text shows one byte in each group, so that its groups from last to first are the
binary numeral. -/
theorem Word.numerals_agree {w : Nat} (a : Word w) :
    ((a.numeral .binary false).length = w ∧
        (∀ r, r ≠ .binary → (a.numeral r false).length = 2 * octetCount w) ∧
        ∀ r : Radix, r.read? (a.numeral r false) = some a.value) ∧
      (a.toBytes.length = octetCount w ∧
        ∑ j ∈ Finset.range (octetCount w), (a.toBytes.getD j 0).toNat * Nat.pow 256 j =
          a.value) ∧
      (0 < w →
        (a.text.splitOn ' ').length = octetCount w ∧
        (∀ j < octetCount w, ∃ g, (a.text.splitOn ' ')[j]? = some g ∧
          g.length = (if j < w / 8 then 8 else w % 8) ∧
          Radix.binary.read? g = some (a.toBytes.getD j 0).toNat) ∧
        (a.text.splitOn ' ').reverse.flatten = a.numeral .binary false) := by
  refine ⟨⟨a.length_digits_binary, ?_, a.read?_digits⟩, ⟨a.length_toBytes, a.sum_toBytes⟩, ?_⟩
  · intro r hr
    cases r with
    | binary => exact absurd rfl hr
    | lowerHex => exact (length_hexDigits _ _).trans (by rw [a.length_toBytes])
    | upperHex => exact (length_hexDigits _ _).trans (by rw [a.length_toBytes])
  · intro hw
    refine ⟨?_, ?_, ?_⟩
    · rw [a.splitOn_text hw, List.length_map, length_octets, a.length_toList]
    · intro j hj
      refine ⟨_, a.getElem?_splitOn_text hw hj, ?_, ?_⟩
      · simp only [bitDigits, List.length_map, List.length_reverse, List.length_take,
          List.length_drop, a.length_toList]
        unfold octetCount at hj
        split <;> omega
      · rw [read?_bitDigits, a.toNat_getD_toBytes]
    · rw [a.splitOn_text hw, flatten_reverse_bitDigits, flatten_octets]
      rfl

theorem Word.numerals_agree_twelve :
    let a : Word 12 := .ofNat 0xA35
    0 < 12 ∧ (a.text.splitOn ' ').length = octetCount 12 ∧
      (∀ j < octetCount 12, ∃ g, (a.text.splitOn ' ')[j]? = some g ∧
        g.length = (if j < 12 / 8 then 8 else 12 % 8) ∧
        Radix.binary.read? g = some (a.toBytes.getD j 0).toNat) ∧
      (a.text.splitOn ' ').reverse.flatten = a.numeral .binary false :=
  have hpos : 0 < 12 := by decide
  ⟨hpos, (Word.numerals_agree (.ofNat 0xA35)).2.2 hpos⟩

end BitPattern
