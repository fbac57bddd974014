import BitPattern.Decimal.Shortest
import BitPattern.Fault
import BitPattern.Text.Quoted

set_option autoImplicit false

namespace BitPattern.Json

inductive Token where
  | null
  | bool (b : Bool)
  | integer (n : Int)
  | real (negative : Bool) (x : Binary64)
  | text (s : List Char)
  | list
  | object
  deriving DecidableEq, Repr

def Token.describe : Token → String
  | .null => "null"
  | .bool b => s!"boolean `{b}`"
  | .integer n => s!"integer `{n}`"
  | .real negative x =>
    let sign := if negative then "-" else ""
    let text := String.ofList x.text
    s!"floating point `{sign}{text}`"
  | .text s => "string " ++ String.ofList (quotedText s)
  | .list => "sequence"
  | .object => "map"

inductive Wanted where
  | word (width : Nat)
  | pattern (width : Nat)
  | text
  | null
  | style
  deriving DecidableEq, Repr

def Wanted.describe : Wanted → String
  | .word width => s!"a {width}-bit vector"
  | .pattern width => s!"a rendered {width}-bit incomplete vector"
  | .text => "a string"
  | .null => "unit"
  | .style => "struct RenderOptions"

inductive Refusal where
  | mismatch (found : Token) (wanted : Wanted)
  | tooLarge (n width : Nat)
  | unknownName (s : List Char) (names : List String)
  | repeatedField (name : String)
  | fault (f : BitPattern.Fault)
  deriving DecidableEq, Repr

def Refusal.message : Refusal → String
  | .mismatch found wanted =>
    let what := found.describe
    let expected := wanted.describe
    s!"invalid type: {what}, expected {expected}"
  | .tooLarge n width => s!"value {n} does not fit in {width} bits"
  | .unknownName s names =>
    let name := String.ofList s
    let choices := String.intercalate ", " (names.map fun n => s!"`{n}`")
    s!"unknown variant `{name}`, expected one of {choices}"
  | .repeatedField name => s!"duplicate field `{name}`"
  | .fault f => f.message

inductive Fault where
  | refused (r : Refusal)
  | malformed
  | endsEarly
  deriving DecidableEq, Repr

/-- A reader takes a value off the front of a text. -/
abbrev Reader (α : Type) := List Char → Except Fault (α × List Char)

end BitPattern.Json
