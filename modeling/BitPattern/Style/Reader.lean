import BitPattern.Fault
import BitPattern.Limit
import BitPattern.Style
import BitPattern.Text.Blank

/-!
Reading bits back from text. At each point the separator comes before the marker, and both before
the single characters. Groups are found by counting bits, so separators, blanks and underscores may
stand anywhere.
-/

set_option autoImplicit false

namespace BitPattern

def unknownMarkers : List Char := ['*', '?', 'x', 'X']

def Trit.ofSymbol? (c : Char) : Option Trit :=
  if c = '0' then some .zero
  else if c = '1' then some .one
  else if c ∈ unknownMarkers then some .unknown
  else none

def isFiller (c : Char) : Bool := c == '_' || isBlank c

/-- Tells whether the text starts with the word, which must not be empty. -/
def startsWithWord (word text : List Char) : Bool := !word.isEmpty && word.isPrefixOf text

/-- The bits in the order in which the text shows them. -/
def Style.scan (s : Style) : List Char → Except Fault (List Trit)
  | [] => .ok []
  | c :: cs =>
    if startsWithWord s.separator (c :: cs) then s.scan (cs.drop (s.separator.length - 1))
    else if startsWithWord s.marker (c :: cs) then do
      let bits ← s.scan (cs.drop (s.marker.length - 1))
      return .unknown :: bits
    else
      match Trit.ofSymbol? c with
      | some t => do
        let bits ← s.scan cs
        return t :: bits
      | none => if isFiller c then s.scan cs else .error (.invalidDigit c)
termination_by text => text.length
decreasing_by all_goals (simp only [List.length_cons, List.length_drop]; omega)

/-- Reads exactly `width` bits, bit 0 first, where there is a buffer for them. -/
def Style.read (s : Style) (text : List Char) (width : Nat) : Except Fault (List Trit) := do
  let bits ← s.scan (trimBlanks text)
  if bits.isEmpty then .error .empty
  else if bits.length ≠ width then .error (.lengthMismatch width bits.length)
  else return flipOctets bits

/-- Reads into a buffer of its own, a byte for each of the `width` bits, which is asked for before
the text is looked at. -/
def Style.readBuffered (s : Style) (text : List Char) (width : Nat) :
    Ending (Except Fault (List Trit)) :=
  if width ≤ bufferLimit then .answer (s.read text width) else .overflow

end BitPattern
