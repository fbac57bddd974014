import BitPattern.Json.Number
import BitPattern.Json.Text

/-!
Reading JSON token by token. A token is read whole, so its own mistakes come before anything that
is said about its kind, and what follows a value is looked at last.
-/

set_option autoImplicit false

namespace BitPattern.Json

def refuse {α : Type} (r : Refusal) : Except Fault α := .error (.refused r)

def isSpace (c : Char) : Bool := c == ' ' || c == '\n' || c == '\t' || c == '\r'

def skipSpace (text : List Char) : List Char := text.dropWhile isSpace

def readRest : (word text : List Char) → Except Fault (List Char)
  | [], cs => .ok cs
  | _ :: _, [] => .error .endsEarly
  | w :: ws, c :: cs => if w = c then readRest ws cs else .error .malformed

def readToken : Reader Token := fun text =>
  match skipSpace text with
  | [] => .error .endsEarly
  | 'n' :: cs => return (.null, ← readRest ['u', 'l', 'l'] cs)
  | 't' :: cs => return (.bool true, ← readRest ['r', 'u', 'e'] cs)
  | 'f' :: cs => return (.bool false, ← readRest ['a', 'l', 's', 'e'] cs)
  | '"' :: cs => return (← readText cs).map .text id
  | '[' :: cs => return (.list, cs)
  | '\x7b' :: cs => return (.object, cs)
  | '-' :: cs => readNumber true cs
  | c :: cs => if c.isDigit then readNumber false (c :: cs) else .error .malformed

def readMark (mark : Char) (text : List Char) : Except Fault (List Char) :=
  match skipSpace text with
  | [] => .error .endsEarly
  | c :: cs => if c = mark then .ok cs else .error .malformed

def readString : Reader (List Char) := fun text => do
  match ← readToken text with
  | (.text s, rest) => return (s, rest)
  | (t, _) => refuse (.mismatch t .text)

def readWhole {α : Type} (read : Reader α) (text : List Char) : Except Fault α := do
  let (a, rest) ← read text
  if (skipSpace rest).isEmpty then return a else .error .malformed

theorem readToken_quote (s rest : List Char) :
    readToken (quote s ++ rest) = .ok (.text s, rest) := by
  have h : skipSpace (quote s ++ rest) = '"' :: (s.flatMap escapedChar ++ '"' :: rest) := by
    simp [quote, skipSpace, isSpace]
  simp only [readToken, h, readText_escaped]
  rfl

theorem isSpace_of_isDigit {c : Char} (h : c.isDigit = true) : isSpace c = false := by
  rw [Bool.eq_false_iff]
  intro hs
  simp only [isSpace, Bool.or_eq_true, beq_iff_eq] at hs
  rcases hs with ((rfl | rfl) | rfl) | rfl <;> exact absurd h (by decide)

theorem readToken_of_isDigit {c : Char} (h : c.isDigit = true) (cs : List Char) :
    readToken (c :: cs) = readNumber false (c :: cs) := by
  have hskip : skipSpace (c :: cs) = c :: cs := by simp [skipSpace, isSpace_of_isDigit h]
  rw [readToken, hskip]
  split
  case h_1 => contradiction
  case h_9 heq =>
    obtain ⟨rfl, rfl⟩ := List.cons.inj heq
    rw [if_pos h]
  -- the other tokens begin with characters that are no digits
  all_goals
    next heq =>
      obtain ⟨rfl, -⟩ := List.cons.inj heq
      exact absurd h (by decide)

theorem readToken_toDigits {n : Nat} (h : n ≤ wholeLimit) {rest : List Char}
    (hrest : EndsNumber rest) :
    readToken (Nat.toDigits 10 n ++ rest) = .ok (.integer n, rest) := by
  have hread := readNumber_toDigits h hrest
  obtain ⟨c, cs, hcs⟩ := List.exists_cons_of_ne_nil (Nat.toDigits_ne_nil (n := n) (b := 10))
  have hc : c.isDigit = true := isDigit_of_mem_toDigits (n := n) (by simp [hcs])
  rw [hcs, List.cons_append] at hread ⊢
  rw [readToken_of_isDigit hc, hread]

/-- A text that is this token, with nothing but blanks around it. -/
def Says (text : List Char) (t : Token) : Prop :=
  ∃ rest, readToken text = .ok (t, rest) ∧ skipSpace rest = []

theorem says_quote (s : List Char) : Says (quote s) (.text s) := by
  have h := readToken_quote s []
  rw [List.append_nil] at h
  exact ⟨[], h, rfl⟩

theorem says_toDigits {n : Nat} (h : n ≤ wholeLimit) : Says (Nat.toDigits 10 n) (.integer n) := by
  have h := readToken_toDigits h endsNumber_nil
  rw [List.append_nil] at h
  exact ⟨[], h, rfl⟩

theorem readWhole_of_says {α : Type} {read : Reader α} {text : List Char} {t : Token}
    {a : Except Fault α} (h : Says text t)
    (hread : ∀ rest, readToken text = .ok (t, rest) → read text = (·, rest) <$> a) :
    readWhole read text = a := by
  obtain ⟨rest, htoken, hrest⟩ := h
  rw [readWhole, hread rest htoken]
  cases a with
  | ok a => simp [hrest, Functor.map, Except.map, bind, Except.bind, pure, Except.pure]
  | error f => rfl

end BitPattern.Json
