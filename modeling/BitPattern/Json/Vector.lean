import BitPattern.Json.Reader
import BitPattern.Word.Text

set_option autoImplicit false

namespace BitPattern

open Json (Reader readToken readWhole refuse)

def numberWidth : Nat := 64

def Word.toJson {w : Nat} (a : Word w) : List Char :=
  if w ≤ numberWidth then Nat.toDigits 10 a.toNat else Json.quote a.text

def Pattern.toJson {w : Nat} (p : Pattern w) : List Char := Json.quote p.text

def orRefuse {α : Type} : Except Fault α → Except Json.Fault α
  | .ok a => .ok a
  | .error f => refuse (.fault f)

/-- The word of a number, which has to fit. A width of at least `numberWidth` has room for every
number there is. -/
def Word.ofNumber {w : Nat} (n : Nat) : Except Json.Fault (Word w) :=
  if w < numberWidth ∧ n >>> w ≠ 0 then refuse (.tooLarge n w)
  else .ok (.ofBytes (numberBytes n))

def Word.readJson {w : Nat} : Reader (Word w) := fun text => do
  match ← readToken text with
  | (.integer (.ofNat n), rest) => return (← Word.ofNumber n, rest)
  | (.text s, rest) => return (← orRefuse (Word.ofText .plain s), rest)
  | (t, _) => refuse (.mismatch t (.word w))

def Word.ofJson {w : Nat} (text : List Char) : Except Json.Fault (Word w) :=
  readWhole Word.readJson text

def Pattern.readJson {w : Nat} : Reader (Pattern w) := fun text => do
  match ← readToken text with
  | (.text s, rest) => return (← orRefuse (Pattern.ofText .plain s), rest)
  | (t, _) => refuse (.mismatch t (.pattern w))

def Pattern.ofJson {w : Nat} (text : List Char) : Except Json.Fault (Pattern w) :=
  readWhole Pattern.readJson text

theorem Word.ofNumber_of_lt {w n : Nat} (h : n < twoPow w) :
    (Word.ofNumber n : Except Json.Fault (Word w)) = .ok (.ofNat n) := by
  have hfits : ¬(w < numberWidth ∧ n >>> w ≠ 0) := fun hlarge =>
    hlarge.2 (shiftRight_eq_zero_iff.2 h)
  rw [Word.ofNumber, if_neg hfits, Word.ofBytes_numberBytes]

theorem Word.ofNumber_of_not_lt {w n : Nat} (hn : n ≤ Json.wholeLimit) (h : ¬n < twoPow w) :
    (Word.ofNumber n : Except Json.Fault (Word w)) = .error (.refused (.tooLarge n w)) := by
  have hlimit : Json.wholeLimit + 1 = twoPow numberWidth := by decide
  have hw : w < numberWidth := Nat.lt_of_not_le fun hwide => by
    have hle : twoPow numberWidth ≤ twoPow w := Nat.pow_le_pow_right Nat.two_pos hwide
    omega
  exact if_pos ⟨hw, mt shiftRight_eq_zero_iff.1 h⟩

theorem Word.ofJson_of_says_integer {w n : Nat} {text : List Char}
    (h : Json.Says text (.integer n)) :
    (Word.ofJson text : Except Json.Fault (Word w)) = Word.ofNumber n := by
  refine Json.readWhole_of_says h fun rest htoken => ?_
  rw [Word.readJson, htoken]
  rfl

theorem Word.ofJson_of_says_text {w : Nat} {text s : List Char} (h : Json.Says text (.text s)) :
    (Word.ofJson text : Except Json.Fault (Word w)) = orRefuse (Word.ofText .plain s) := by
  refine Json.readWhole_of_says h fun rest htoken => ?_
  rw [Word.readJson, htoken]
  rfl

theorem Pattern.ofJson_of_says_text {w : Nat} {text s : List Char}
    (h : Json.Says text (.text s)) :
    (Pattern.ofJson text : Except Json.Fault (Pattern w)) =
      orRefuse (Pattern.ofText .plain s) := by
  refine Json.readWhole_of_says h fun rest htoken => ?_
  rw [Pattern.readJson, htoken]
  rfl

theorem Word.ofJson_toDigits {w n : Nat} (h : n ≤ Json.wholeLimit) :
    (Word.ofJson (Nat.toDigits 10 n) : Except Json.Fault (Word w)) = Word.ofNumber n :=
  Word.ofJson_of_says_integer (Json.says_toDigits h)

theorem Word.ofJson_quote {w : Nat} (s : List Char) :
    (Word.ofJson (Json.quote s) : Except Json.Fault (Word w)) =
      orRefuse (Word.ofText .plain s) :=
  Word.ofJson_of_says_text (Json.says_quote s)

theorem Pattern.ofJson_quote {w : Nat} (s : List Char) :
    (Pattern.ofJson (Json.quote s) : Except Json.Fault (Pattern w)) =
      orRefuse (Pattern.ofText .plain s) :=
  Pattern.ofJson_of_says_text (Json.says_quote s)

end BitPattern
