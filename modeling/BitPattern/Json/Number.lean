import BitPattern.Json.Fault
import BitPattern.Power

set_option autoImplicit false

namespace BitPattern.Json

def wholeLimit : Nat := twoPow 64 - 1

def negativeLimit : Nat := twoPow 63

/-- Adds digits to a number while it fits. Gives the number and the digits that are left. -/
def absorbDigits : Nat → List Char → Nat × List Char
  | n, [] => (n, [])
  | n, c :: cs =>
    let m := 10 * n + (c.toNat - '0'.toNat)
    if m ≤ wholeLimit then absorbDigits m cs else (n, c :: cs)

def readDigits : Reader (List Char) := fun text =>
  match text.takeWhile Char.isDigit, text with
  | [], [] => .error .endsEarly
  | [], _ => .error .malformed
  | digits, _ => .ok (digits, text.dropWhile Char.isDigit)

def realToken (negative : Bool) (m : Nat) (e : Int) : Except Fault Token :=
  match Binary64.ofScientific? m e with
  | some x => .ok (.real negative x)
  | none => .error .malformed

def integerToken (negative : Bool) (n : Nat) : Except Fault Token :=
  if !negative then .ok (.integer n)
  else if 0 < n ∧ n ≤ negativeLimit then .ok (.integer (-n))
  else realToken true n 0

def readExponent (negative : Bool) (m : Nat) (e : Int) : Reader Token := fun text => do
  let (down, text) := match text with
    | '+' :: cs => (false, cs)
    | '-' :: cs => (true, cs)
    | cs => (false, cs)
  let (digits, rest) ← readDigits text
  let k := Nat.ofDigitChars 10 digits 0
  return (← realToken negative m (if down then e - k else e + k), rest)

def readTail (negative : Bool) (m : Nat) (e : Int) : Reader Token
  | 'e' :: cs | 'E' :: cs => readExponent negative m e cs
  | cs => return (← realToken negative m e, cs)

/-- Reads a number whose sign is already taken. -/
def readNumber (negative : Bool) : Reader Token := fun text => do
  let (digits, rest) ← readDigits text
  if digits.head? = some '0' ∧ 1 < digits.length then .error .malformed
  else
    let (m, extra) := absorbDigits 0 digits
    match rest with
    | '.' :: cs => do
      let (places, rest) ← readDigits cs
      let (m, unused) := absorbDigits m places
      readTail negative m (extra.length - (places.length - unused.length : Nat)) rest
    | 'e' :: _ | 'E' :: _ => readTail negative m extra.length rest
    | _ =>
      if extra.isEmpty then return (← integerToken negative m, rest)
      else return (← realToken negative m extra.length, rest)

def EndsNumber (rest : List Char) : Prop :=
  ∀ c, rest.head? = some c → c.isDigit = false ∧ c ≠ '.' ∧ c ≠ 'e' ∧ c ≠ 'E'

theorem endsNumber_nil : EndsNumber [] := by simp [EndsNumber]

theorem readDigits_append {digits rest : List Char} (h : digits ≠ [])
    (hdigits : ∀ c ∈ digits, c.isDigit = true) (hrest : EndsNumber rest) :
    readDigits (digits ++ rest) = .ok (digits, rest) := by
  have hstop : rest.takeWhile Char.isDigit = [] ∧ rest.dropWhile Char.isDigit = rest := by
    cases rest with
    | nil => simp
    | cons c cs => simp [(hrest c rfl).1]
  have htake : (digits ++ rest).takeWhile Char.isDigit = digits := by
    rw [List.takeWhile_append_of_pos hdigits, hstop.1, List.append_nil]
  have hdrop : (digits ++ rest).dropWhile Char.isDigit = rest := by
    rw [List.dropWhile_append_of_pos hdigits, hstop.2]
  obtain ⟨c, cs, rfl⟩ := List.exists_cons_of_ne_nil h
  simp only [readDigits, htake, hdrop]

theorem le_ofDigitChars (n : Nat) (digits : List Char) : n ≤ Nat.ofDigitChars 10 digits n := by
  induction digits generalizing n with
  | nil => simp
  | cons c cs ih =>
    have hrest := ih (10 * n + (c.toNat - '0'.toNat))
    rw [Nat.ofDigitChars_cons]
    omega

theorem absorbDigits_of_le {n : Nat} {digits : List Char}
    (h : Nat.ofDigitChars 10 digits n ≤ wholeLimit) :
    absorbDigits n digits = (Nat.ofDigitChars 10 digits n, []) := by
  induction digits generalizing n with
  | nil => simp [absorbDigits]
  | cons c cs ih =>
    rw [Nat.ofDigitChars_cons] at h ⊢
    have hle := le_ofDigitChars (10 * n + (c.toNat - '0'.toNat)) cs
    rw [absorbDigits, if_pos (Nat.le_trans hle h), ih h]

theorem isDigit_of_mem_toDigits {n : Nat} {c : Char} (h : c ∈ Nat.toDigits 10 n) :
    c.isDigit = true :=
  Nat.isDigit_of_mem_toDigits (by decide) (by decide) h

theorem eq_zero_of_head?_toDigits {n : Nat} (h : (Nat.toDigits 10 n).head? = some '0') :
    n = 0 := by
  induction n using Nat.strongRecOn with
  | ind n ih =>
    by_cases hn : n < 10
    · rw [Nat.toDigits_of_lt_base hn] at h
      simpa using h
    · have hfront : (Nat.toDigits 10 (n / 10)).head? = some '0' := by
        obtain ⟨c, cs, hcs⟩ := List.exists_cons_of_ne_nil (Nat.toDigits_ne_nil (n := n / 10))
        rw [Nat.toDigits_of_base_le (by decide) (by omega), hcs] at h
        rwa [hcs]
      have hzero := ih (n / 10) (by omega) hfront
      omega

theorem readNumber_toDigits {n : Nat} (h : n ≤ wholeLimit) {rest : List Char}
    (hrest : EndsNumber rest) :
    readNumber false (Nat.toDigits 10 n ++ rest) = .ok (.integer n, rest) := by
  have hdigits : readDigits (Nat.toDigits 10 n ++ rest) = .ok (Nat.toDigits 10 n, rest) :=
    readDigits_append Nat.toDigits_ne_nil (fun _ hc => isDigit_of_mem_toDigits hc) hrest
  have hfront : ¬((Nat.toDigits 10 n).head? = some '0' ∧ 1 < (Nat.toDigits 10 n).length) := by
    rintro ⟨hhead, hlength⟩
    rw [eq_zero_of_head?_toDigits hhead, Nat.toDigits_zero] at hlength
    exact absurd hlength (by decide)
  have hnumber : Nat.ofDigitChars 10 (Nat.toDigits 10 n) 0 = n := Nat.ofDigitChars_ten_toDigits
  have habsorb : absorbDigits 0 (Nat.toDigits 10 n) = (n, []) := by
    rw [absorbDigits_of_le (by rwa [hnumber]), hnumber]
  simp only [readNumber, hdigits, bind, Except.bind, if_neg hfront, habsorb]
  split
  next => simpa using hrest '.' rfl
  next => simpa using hrest 'e' rfl
  next => simpa using hrest 'E' rfl
  next => rfl

end BitPattern.Json
