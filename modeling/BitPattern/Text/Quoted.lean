import BitPattern.Text.Hidden

set_option autoImplicit false

namespace BitPattern

def shownChar (c : Char) : List Char :=
  if c = '"' ∨ c = '\\' then ['\\', c]
  else if c = '\n' then ['\\', 'n']
  else if c = '\r' then ['\\', 'r']
  else if c = '\t' then ['\\', 't']
  else if c = '\x00' then ['\\', '0']
  else if isHidden c then ['\\', 'u', '\x7b'] ++ Nat.toDigits 16 c.toNat ++ ['\x7d']
  else [c]

def quotedText (s : List Char) : List Char := ['"'] ++ s.flatMap shownChar ++ ['"']

end BitPattern
