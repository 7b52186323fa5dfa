import HackToolchain.Proofs.Build
import HackToolchain.Proofs.FailureRows
import HackToolchain.Proofs.WrittenText
import Mathlib
/-!
The rows of a file. Reading a file gives the rows of the text in it, by whatever path it is reached, so
rows that are written to a file are read back. Of the rows of a file those that hold something count, and
each keeps its number.
-/

namespace HackToolchain

/-! ## Rows that count -/

namespace Line

end Line

namespace Build

variable {m : Type → Type} [Monad m] [Host m]

end Build

end HackToolchain
