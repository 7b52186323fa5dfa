import HackToolchain.Failure
import HackToolchain.Machine.Word
/-!
Loading a program: lines of sixteen binary digits become the words of the instruction memory.
Among raw lines, those that hold only a comment or nothing are passed over.
-/

namespace HackToolchain

/-- The word on a line, if the line counts. -/
def romWord? (line : Line) : Except Failure (Option Word) :=
  match line with
  | .raw text =>
    let content := stripComment text
    if content == "" then .ok none else some <$> parse content none
  | .located text location => some <$> parse text location
where
  parse (text : String) (location : Option Location) : Except Failure Word :=
    match Word.ofText? text.toList with
    | some word => .ok word
    | none => .error (Cause.at (.invalidMachineWord text) location)

/-- The words on the lines of a program. -/
def romWords (lines : List Line) : Except Failure (List Word) :=
  lines.filterMapM romWord?

end HackToolchain
