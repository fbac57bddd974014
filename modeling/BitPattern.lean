import BitPattern.Json.Choice
import BitPattern.Json.Style
import BitPattern.Proofs.ByteCompletion
import BitPattern.Proofs.ByteText
import BitPattern.Proofs.Bytewise
import BitPattern.Proofs.Duality
import BitPattern.Proofs.Feasibility
import BitPattern.Proofs.Forward
import BitPattern.Proofs.IndexRange
import BitPattern.Proofs.JsonForms
import BitPattern.Proofs.KnownBytes
import BitPattern.Proofs.Numeral
import BitPattern.Proofs.Overlap
import BitPattern.Proofs.Padding
import BitPattern.Proofs.Recovery
import BitPattern.Proofs.Resizing
import BitPattern.Proofs.Reversal
import BitPattern.Proofs.Tokens
import BitPattern.Proofs.Writing
