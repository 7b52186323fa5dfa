import HackToolchain.CommandLine.Options
import HackToolchain.Failure
/-!
What a source implies about the output: its format, and its path where none is given.
-/

namespace HackToolchain.CommandLine

def assemblySuffix : String := ".asm"

def bytecodeSuffix : String := ".vm"

/-- The output format for a source. Assembly can only become binary. -/
def inferFormat (source : Path) (requested : Option Format) : Option Format :=
  if source.suffix == assemblySuffix then
    if requested = some .asm then none else some .hack
  else some (requested.getD .asm)

/-- The output path for the given sources: that of the first with the suffix of the format, which
is added to a suffix that is the same already. -/
def inferOutput (sources : List Path) (format : Format) : Except Failure Path :=
  let source := sources.head?.getD (.ofString "out")
  let suffix := if source.suffix == format.suffix then source.suffix ++ format.suffix else format.suffix
  match source.withSuffix? suffix with
  | some path => .ok path
  | none => .error (.namelessPath source)

end HackToolchain.CommandLine
