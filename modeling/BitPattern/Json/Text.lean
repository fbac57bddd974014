import BitPattern.Json.Fault

set_option autoImplicit false

namespace BitPattern.Json

def escapedChar (c : Char) : List Char :=
  if c = '"' ∨ c = '\\' then ['\\', c]
  else if c = '\x08' then ['\\', 'b']
  else if c = '\x0c' then ['\\', 'f']
  else if c = '\n' then ['\\', 'n']
  else if c = '\r' then ['\\', 'r']
  else if c = '\t' then ['\\', 't']
  else if c < ' ' then
    ['\\', 'u', '0', '0', Nat.digitChar (c.toNat / 16), Nat.digitChar (c.toNat % 16)]
  else [c]

def quote (s : List Char) : List Char := ['"'] ++ s.flatMap escapedChar ++ ['"']

def hexValue? (c : Char) : Option Nat :=
  if '0' ≤ c ∧ c ≤ '9' then some (c.toNat - '0'.toNat)
  else if 'a' ≤ c ∧ c ≤ 'f' then some (c.toNat - 'a'.toNat + 10)
  else if 'A' ≤ c ∧ c ≤ 'F' then some (c.toNat - 'A'.toNat + 10)
  else none

def byteLength (text : List Char) : Nat := text.foldl (fun n c => n + c.utf8Size) 0

/-- Reads the four hexadecimal digits of an escape. A text of less than four bytes ends early,
whatever it holds. -/
def readHexUnit (text : List Char) : Except Fault Nat :=
  match (text.take 4).mapM hexValue? with
  | some [a, b, c, d] => .ok (((a * 16 + b) * 16 + c) * 16 + d)
  | _ => .error (if byteLength text < 4 then .endsEarly else .malformed)

def isHighUnit (n : Nat) : Bool := 0xD800 ≤ n && n ≤ 0xDBFF

def isLowUnit (n : Nat) : Bool := 0xDC00 ≤ n && n ≤ 0xDFFF

def plainEscape? : Char → Option Char
  | '"' => some '"'
  | '\\' => some '\\'
  | '/' => some '/'
  | 'b' => some '\x08'
  | 'f' => some '\x0c'
  | 'n' => some '\n'
  | 'r' => some '\r'
  | 't' => some '\t'
  | _ => none

/-- Reads what follows `\u`: the character and the number of characters that it takes up. A high
unit needs a low one after it. -/
def readUnicode (text : List Char) : Except Fault (Char × Nat) := do
  let n ← readHexUnit text
  if isLowUnit n then .error .malformed
  else if isHighUnit n then
    match text.drop 4 with
    | [] | ['\\'] => .error .endsEarly
    | '\\' :: 'u' :: rest => do
      let m ← readHexUnit rest
      if isLowUnit m then return (.ofNat (0x10000 + (n - 0xD800) * 0x400 + (m - 0xDC00)), 10)
      else .error .malformed
    | _ => .error .malformed
  else return (.ofNat n, 4)

def readEscape : List Char → Except Fault (Char × Nat)
  | [] => .error .endsEarly
  | c :: cs =>
    match plainEscape? c with
    | some d => return (d, 1)
    | none => if c = 'u' then return (← readUnicode cs).map id (· + 1) else .error .malformed

def readText : Reader (List Char)
  | [] => .error .endsEarly
  | c :: cs =>
    if c = '"' then .ok ([], cs)
    else if c = '\\' then do
      let (d, n) ← readEscape cs
      let (s, rest) ← readText (cs.drop n)
      return (d :: s, rest)
    else if c < ' ' then .error .malformed
    else do
      let (s, rest) ← readText cs
      return (c :: s, rest)
termination_by text => text.length
decreasing_by all_goals (simp only [List.length_cons, List.length_drop]; omega)

/-- Checks what follows a backslash, leaving the units of a pair unpaired. -/
def skipEscape : List Char → Except Fault Nat
  | [] => .error .endsEarly
  | c :: cs =>
    match plainEscape? c with
    | some _ => return 1
    | none =>
      if c = 'u' then do
        let _ ← readHexUnit cs
        return 5
      else .error .malformed

def skipText : List Char → Except Fault (List Char)
  | [] => .error .endsEarly
  | c :: cs =>
    if c = '"' then .ok cs
    else if c = '\\' then do
      let n ← skipEscape cs
      skipText (cs.drop n)
    else if c < ' ' then .error .malformed
    else skipText cs
termination_by text => text.length
decreasing_by all_goals (simp only [List.length_cons, List.length_drop]; omega)

theorem hexValue?_digitChar {n : Nat} (h : n < 16) : hexValue? (Nat.digitChar n) = some n := by
  have all : ∀ n < 16, hexValue? (Nat.digitChar n) = some n := by decide
  exact all n h

theorem readUnicode_control {c : Char} (h : c.toNat < 32) (text : List Char) :
    readUnicode
      ('0' :: '0' :: Nat.digitChar (c.toNat / 16) :: Nat.digitChar (c.toNat % 16) :: text) =
      .ok (c, 4) := by
  have h0 : hexValue? '0' = some 0 := by decide
  have h1 := hexValue?_digitChar (n := c.toNat / 16) (by omega)
  have h2 := hexValue?_digitChar (n := c.toNat % 16) (by omega)
  have hn : c.toNat / 16 * 16 + c.toNat % 16 = c.toNat := by omega
  have hl : isLowUnit c.toNat = false := by simp [isLowUnit]; omega
  have hh : isHighUnit c.toNat = false := by simp [isHighUnit]; omega
  simp [readUnicode, readHexUnit, h0, h1, h2, hn, hl, hh, bind, Except.bind, pure, Except.pure]

theorem readText_escapedChar (c : Char) (text : List Char) :
    readText (escapedChar c ++ text) = do
      let (s, rest) ← readText text
      return (c :: s, rest) := by
  unfold escapedChar
  split
  next h =>
    rcases h with rfl | rfl <;> simp [readText, readEscape, plainEscape?]
  split
  next h => subst h; simp [readText, readEscape, plainEscape?]
  split
  next h => subst h; simp [readText, readEscape, plainEscape?]
  split
  next h => subst h; simp [readText, readEscape, plainEscape?]
  split
  next h => subst h; simp [readText, readEscape, plainEscape?]
  split
  next h => subst h; simp [readText, readEscape, plainEscape?]
  split
  next h =>
    have hu := readUnicode_control (show c.toNat < 32 from h) text
    simp [readText, readEscape, plainEscape?, hu, bind, Except.bind, pure, Except.pure]
  next h _ _ _ _ _ hs =>
    rw [not_or] at h
    simp [readText, h, hs]

/-- What is written for a string reads back as that string, up to its closing quote. -/
theorem readText_escaped (s rest : List Char) :
    readText (s.flatMap escapedChar ++ '"' :: rest) = .ok (s, rest) := by
  induction s with
  | nil => simp [readText]
  | cons c s ih =>
    rw [List.flatMap_cons, List.append_assoc, readText_escapedChar, ih]
    rfl

end BitPattern.Json
