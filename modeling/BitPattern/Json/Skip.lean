import BitPattern.Json.Reader

set_option autoImplicit false

namespace BitPattern.Json

def skipDigits (text : List Char) : Except Fault (List Char) :=
  if (text.takeWhile Char.isDigit).isEmpty then .error .malformed
  else .ok (text.dropWhile Char.isDigit)

def skipExponent : List Char → Except Fault (List Char)
  | 'e' :: '+' :: cs | 'e' :: '-' :: cs | 'E' :: '+' :: cs | 'E' :: '-' :: cs => skipDigits cs
  | 'e' :: cs | 'E' :: cs => skipDigits cs
  | cs => .ok cs

def skipNumber (text : List Char) : Except Fault (List Char) := do
  let rest ← skipDigits text
  if text.head? = some '0' ∧ rest.length + 1 < text.length then .error .malformed
  else
    match rest with
    | '.' :: cs => do
      let rest ← skipDigits cs
      skipExponent rest
    | _ => skipExponent rest

def skipPlain : List Char → Except Fault (List Char)
  | [] => .error .endsEarly
  | 'n' :: cs => readRest ['u', 'l', 'l'] cs
  | 't' :: cs => readRest ['r', 'u', 'e'] cs
  | 'f' :: cs => readRest ['a', 'l', 's', 'e'] cs
  | '"' :: cs => skipText cs
  | '-' :: cs => skipNumber cs
  | c :: cs => if c.isDigit then skipNumber (c :: cs) else .error .malformed

inductive Bracket where
  | list
  | object
  deriving DecidableEq, Repr

def Bracket.close : Bracket → Char
  | .list => ']'
  | .object => '\x7d'

def skipField (text : List Char) : Except Fault (List Char) := do
  let rest ← readMark '"' text
  let rest ← skipText rest
  readMark ':' rest

inductive Next where
  | value
  | after
  deriving DecidableEq, Repr

/-- Skips on until every open bracket is closed. Every step but the last takes a character. -/
def skipOn : Nat → List Bracket → Next → List Char → Except Fault (List Char)
  | 0, _, _, _ => .error .endsEarly
  | _ + 1, [], .after, text => .ok text
  | fuel + 1, b :: bs, .after, text =>
    match skipSpace text with
    | [] => .error .endsEarly
    | c :: cs =>
      if c = b.close then skipOn fuel bs .after cs
      else if c = ',' then
        match b with
        | .list => skipOn fuel (b :: bs) .value cs
        | .object => do
          let rest ← skipField cs
          skipOn fuel (b :: bs) .value rest
      else .error .malformed
  | fuel + 1, bs, .value, text =>
    match skipSpace text with
    | '[' :: cs =>
      match skipSpace cs with
      | [] => .error .endsEarly
      | ']' :: rest => skipOn fuel bs .after rest
      | rest => skipOn fuel (.list :: bs) .value rest
    | '\x7b' :: cs =>
      match skipSpace cs with
      | [] => .error .endsEarly
      | '\x7d' :: rest => skipOn fuel bs .after rest
      | rest => do
        let rest ← skipField rest
        skipOn fuel (.object :: bs) .value rest
    | rest => do
      let rest ← skipPlain rest
      skipOn fuel bs .after rest

def skipValue (text : List Char) : Except Fault (List Char) :=
  skipOn (text.length + 1) [] .value text

end BitPattern.Json
