import BitPattern.Pattern.Completion

/-!
A pattern's completions, walked from both ends. The walk keeps the first and the last index still
to come, both inclusive, so that the full range of counts fits, and a mark for its end.
-/

set_option autoImplicit false

namespace BitPattern

structure Completions (w : Nat) where
  pattern : Pattern w
  front : Nat
  back : Nat
  done : Bool
  deriving DecidableEq, Repr

/-- Every index is a completion's once there are 128 unknown bits. -/
def Pattern.completions {w : Nat} (p : Pattern w) : Logged (Completions w) :=
  if 128 ≤ p.unknownCount then return ⟨p, 0, countLimit, false⟩
  else do
    let count ← p.completionCount
    return ⟨p, 0, count - 1, false⟩

def Completions.next {w : Nat} (c : Completions w) : Option (Word w) × Completions w :=
  if c.done then (none, c)
  else if c.front = c.back then (some (c.pattern.fill c.front), { c with done := true })
  else (some (c.pattern.fill c.front), { c with front := addCount c.front 1 })

def Completions.nextBack {w : Nat} (c : Completions w) : Option (Word w) × Completions w :=
  if c.done then (none, c)
  else if c.front = c.back then (some (c.pattern.fill c.back), { c with done := true })
  else (some (c.pattern.fill c.back), { c with back := c.back - 1 })

/-- Skips `n` completions from the front at once and takes the one after them. -/
def Completions.nth {w : Nat} (c : Completions w) (n : Nat) : Option (Word w) × Completions w :=
  if c.done then (none, c)
  else if c.back - c.front < n then (none, { c with done := true })
  else { c with front := addCount c.front n }.next

/-- Drops `n` completions from the back one by one and takes the one before them. -/
def Completions.nthBack {w : Nat} (c : Completions w) : Nat → Option (Word w) × Completions w
  | 0 => c.nextBack
  | n + 1 =>
    match c.nextBack with
    | (none, c) => (none, c)
    | (some _, c) => c.nthBack n

def Completions.remaining {w : Nat} (c : Completions w) : Option Nat :=
  if c.done then some 0 else (subtract? c.back c.front).bind (add? countLimit · 1)

def Completions.sizeHint {w : Nat} (c : Completions w) : Nat × Option Nat :=
  let exact := c.remaining.bind (within? lengthLimit)
  (exact.getD lengthLimit, exact)

def Completions.exhaust {w : Nat} (c : Completions w) : Completions w :=
  if c.done then c else { c with front := c.back, done := true }

def Completions.last {w : Nat} (c : Completions w) : Option (Word w) × Completions w :=
  (if c.done then none else some (c.pattern.fill c.back), c.exhaust)

def Completions.count {w : Nat} (c : Completions w) : Nat × Completions w :=
  (if c.done then 0 else c.back - c.front + 1, c.exhaust)

/-- Up to `n` completions, each taken by `step`, ending early when there is none. -/
def Completions.collect {w : Nat}
    (step : Completions w → Option (Word w) × Completions w) :
    Nat → Completions w → List (Word w) × Completions w
  | 0, c => ([], c)
  | n + 1, c =>
    match step c with
    | (none, c) => ([], c)
    | (some a, c) =>
      let (as, c) := collect step n c
      (a :: as, c)

def Completions.take {w : Nat} (c : Completions w) (n : Nat) : List (Word w) × Completions w :=
  collect next n c

def Completions.takeBack {w : Nat} (c : Completions w) (n : Nat) : List (Word w) × Completions w :=
  collect nextBack n c

def Completions.stepBy {w : Nat} (c : Completions w) (k : Nat) :
    Nat → List (Word w) × Completions w
  | 0 => ([], c)
  | n + 1 =>
    match c.next with
    | (none, c) => ([], c)
    | (some a, c) =>
      let (as, c) := collect (nth · (k - 1)) n c
      (a :: as, c)

end BitPattern
