import BitPattern.Json.Reader

set_option autoImplicit false

namespace BitPattern

open Json (Reader readToken readMark readText readWhole refuse skipSpace)

def choose {α : Type} (choices : List α) (name : α → String) (s : List Char) :
    Except Json.Fault α :=
  match choices.find? fun a => (name a).toList = s with
  | some a => .ok a
  | none => refuse (.unknownName s (choices.map name))

def readChoice {α : Type} (choices : List α) (name : α → String) : Reader α := fun text =>
  match skipSpace text with
  | [] => .error .endsEarly
  | '"' :: cs => do
    let (s, rest) ← readText cs
    return (← choose choices name s, rest)
  | '\x7b' :: cs => do
    let (s, rest) ← readText (← readMark '"' cs)
    let a ← choose choices name s
    let (t, rest) ← readToken (← readMark ':' rest)
    match t with
    | .null => return (a, ← readMark '\x7d' rest)
    | _ => refuse (.mismatch t .null)
  | _ => .error .malformed

def Trit.toJson (t : Trit) : List Char := Json.quote t.name.toList

def Trit.ofJson : List Char → Except Json.Fault Trit := readWhole (readChoice Trit.all Trit.name)

def Gate.toJson (g : Gate) : List Char := Json.quote g.name.toList

def Gate.ofJson : List Char → Except Json.Fault Gate := readWhole (readChoice Gate.all Gate.name)

end BitPattern
