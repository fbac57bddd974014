import BitPattern.Proofs.Completion
import BitPattern.Proofs.Regrouping
import BitPattern.Proofs.Scalar

/-!
Completions byte by byte. The unknown bits of a byte take the digits of the index that the bytes
before it leave over, as many as it has, so the index of a completion is written with one digit
for each byte, each to its own base.
-/

set_option autoImplicit false

namespace BitPattern

end BitPattern
