import BitPattern.Json.Skip
import BitPattern.Style

set_option autoImplicit false

namespace BitPattern

open Json (Reader readToken readString readMark readText readWhole refuse skipSpace)

def Style.markerField : String := "missing"

def Style.separatorField : String := "separator"

def Style.toJson (s : Style) : List Char :=
  ['\x7b'] ++ Json.quote Style.markerField.toList ++ [':'] ++ Json.quote s.marker ++ [','] ++
    Json.quote Style.separatorField.toList ++ [':'] ++ Json.quote s.separator ++ ['\x7d']

structure StyleFields where
  marker : Option (List Char) := none
  separator : Option (List Char) := none
  deriving DecidableEq, Repr

def StyleFields.style (f : StyleFields) : Style :=
  ⟨f.marker.getD Style.plain.marker, f.separator.getD Style.plain.separator⟩

/-- Reads one field whose opening quote is already taken. Unknown fields are skipped. -/
def StyleFields.readField (f : StyleFields) : Reader StyleFields := fun text => do
  let (name, rest) ← readText text
  if name = Style.markerField.toList then
    if f.marker.isSome then refuse (.repeatedField Style.markerField)
    else do
      let (s, rest) ← readString (← readMark ':' rest)
      return ({ f with marker := some s }, rest)
  else if name = Style.separatorField.toList then
    if f.separator.isSome then refuse (.repeatedField Style.separatorField)
    else do
      let (s, rest) ← readString (← readMark ':' rest)
      return ({ f with separator := some s }, rest)
  else return (f, ← Json.skipValue (← readMark ':' rest))

def StyleFields.readMore : Nat → StyleFields → Reader StyleFields
  | 0, _, _ => .error .endsEarly
  | fuel + 1, f, text =>
    match skipSpace text with
    | [] => .error .endsEarly
    | '\x7d' :: rest => return (f, rest)
    | ',' :: rest => do
      let (f, rest) ← f.readField (← readMark '"' rest)
      f.readMore fuel rest
    | _ => .error .malformed

def StyleFields.readObject : Reader StyleFields := fun text =>
  match skipSpace text with
  | [] => .error .endsEarly
  | '\x7d' :: rest => return ({}, rest)
  | '"' :: rest => do
    let (f, rest) ← StyleFields.readField {} rest
    f.readMore (rest.length + 1) rest
  | _ => .error .malformed

def StyleFields.readList : Reader StyleFields := fun text =>
  match skipSpace text with
  | [] => .error .endsEarly
  | ']' :: rest => return ({}, rest)
  | text => do
    let (marker, rest) ← readString text
    let f : StyleFields := { marker := some marker }
    match skipSpace rest with
    | [] => .error .endsEarly
    | ']' :: rest => return (f, rest)
    | ',' :: rest => do
      match skipSpace rest with
      | [] => .error .endsEarly
      | ']' :: _ => .error .malformed
      | rest => do
        let (separator, rest) ← readString rest
        return ({ f with separator := some separator }, ← readMark ']' rest)
    | _ => .error .malformed

def Style.readJson : Reader Style := fun text => do
  match ← readToken text with
  | (.object, rest) => return (← StyleFields.readObject rest).map StyleFields.style id
  | (.list, rest) => return (← StyleFields.readList rest).map StyleFields.style id
  | (t, _) => refuse (.mismatch t .style)

def Style.ofJson : List Char → Except Json.Fault Style := readWhole Style.readJson

end BitPattern
