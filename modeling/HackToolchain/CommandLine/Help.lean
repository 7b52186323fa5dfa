import HackToolchain.Text.Template
/-!
The texts that explain how the program is used. The line that shows how to call the program is a
template with the program's name as its one value, and the name stands in the template too, so a
name with percent signs in it is read as fields.
-/

namespace HackToolchain.CommandLine

/-- A text with at most one empty line in a row, after `breaks` line feeds. -/
def closeGaps (breaks : Nat) : List Char → List Char
  | [] => []
  | c :: cs =>
    if c != '\n' then c :: closeGaps 0 cs
    else if breaks < 2 then c :: closeGaps (breaks + 1) cs
    else closeGaps breaks cs

/-- How to call the program. -/
def usage (program : String) : Except Text.TemplateFault String := do
  let call ← Text.fillTemplate [("prog", program)] (program ++ " file [options] [-h]")
  return "usage: " ++ String.ofList (closeGaps 0 call.toList) ++ "\n"

/-- The whole explanation. -/
def help (program : String) : Except Text.TemplateFault String := do
  return (← usage program) ++ "
Hackforge Toolkit - CLI for assembling and translating programs for the Hack
platform

positional arguments:
  source_files          Input source file to process (`.asm` assembly or `.vm`
                        bytecode)

options:
  -h, --help            show this help message and exit
  --version             Show version info

Output:
  Control translation output

  --output OUTPUT, -o OUTPUT
                        Output file path to generate, by default will be
                        inferred from input filename
  --output-format \x7bhack,asm\x7d, -of \x7bhack,asm\x7d
                        Output format. Assembly input is always assembled into
                        `hack`, bytecode input is translated into `asm` by
                        default, `hack` also assembles it.
  --strict              If passed, lines that match no known instruction /
                        command are errors instead of being skipped with
                        warning

Debug:
  Debugging and inspection

  --verbose, -v         If passed will enable INFO and WARNING level logs from
                        toolchain.
  --symbols             If passed will display symbol table (labels and
                        variables) after assembling.

Translator:
  Flags for the VM translator

  --comments            If passed, each VM command is emitted as an comment
                        before its assembly
  --temp-base <N>       First address of the `temp` segment (defaults to 4,
                        platform convention is 5)

Execution:
  Run result on the emulator

  --execute, -e         If provided, will execute binary output on the
                        emulator and display stack / registers. Expects output
                        format to be `hack`
  --cycles <N>          Max instructions to execute on the emulator
"

/-- What is shown when the command line is refused. -/
def refusalText (program reason : String) : Except Text.TemplateFault String := do
  return (← usage program) ++ program ++ ": error: " ++ reason ++ "\n"

end HackToolchain.CommandLine
