import HackToolchain.CommandLine.Console
import HackToolchain.CommandLine.Help
import HackToolchain.CommandLine.Inference
import HackToolchain.Host
/-!
What the command line asks for. Its words are read as settings, and the settings are checked in a
fixed order: the sources, the output format, the output path, the base of the `temp` segment,
whether there is anything to execute, and for how long. The first check that fails ends the
session, so a request that comes out of here has passed all of them. Options left blank have no
message: they end the session with a failure.
-/

namespace HackToolchain.CommandLine

/-- How a session ends: with an exit code, or with a failure that nothing handles. -/
inductive Stop where
  | exit (code : Int)
  | escape (failure : Failure)
deriving DecidableEq

abbrev Session := Interaction Stop

/-- Checked settings. -/
structure Request where
  sources : List Path
  output : Path
  format : Format
  version : Bool
  verbose : Bool
  symbols : Bool
  strict : Bool
  comments : Bool
  tempBase : Int
  execute : Bool
  cycles : Int
  friendly : Bool
deriving DecidableEq, Repr

section

variable {m : Type → Type} [Monad m] [Host m] {α : Type}

namespace Session

def exit (code : Int) : Session m α :=
  throw (.exit code)

/-- Ends the session with an error message. -/
def abort (text : String) : Session m α := do
  Interaction.display (Console.message .error text true)
  exit 1

end Session

/-- A text of the program, which may be impossible to fill in. -/
def filledText (text : Except Text.TemplateFault String) : Session m String :=
  match text with
  | .ok text => return text
  | .error fault => throw (.escape (.template fault))

/-- Reads the words of the command line. -/
def readWords (program : String) (words : List String) : Session m Settings := do
  match readSettings words with
  | .ok settings => return settings
  | .error .help =>
    let text ← filledText (help program)
    Interaction.display fun c => { c with out := c.out ++ text }
    Session.exit 0
  | .error (.refused refusal) =>
    Interaction.display (Console.complain (← filledText (refusalText program refusal.message)))
    Session.exit 2

/-- Checks the sources. The version can be asked for with any. -/
def checkSources (s : Settings) : Session m (List Path) := do
  let paths := s.sources.map Path.ofString
  if s.version then return paths
  match paths with
  | [] => Session.abort "Expected source file to process!"
  | [path] =>
    if path.suffix != assemblySuffix && path.suffix != bytecodeSuffix then
      Session.abort ("Unknown source file type, expected `" ++ assemblySuffix ++
        "` (assembly) or `" ++ bytecodeSuffix ++ "` (VM bytecode).")
    if ← Interaction.onHostOr .escape (Host.present path) then return paths
    else Session.abort "Input source file does not exist, aborting as safe mechanism."
  | _ => Session.abort "Processing several files at once is not supported."

/-- The value of an option, which must not have been left blank. -/
def filled (failure : Failure) : Entry α → Session m α
  | .value a => return a
  | .blank => throw (.escape failure)

/-- Settles the output format, which the first source has to allow. -/
def checkFormat (sources : List Path) (requested : Option Format) : Session m Format :=
  match sources with
  | [] => return requested.getD .hack
  | source :: _ =>
    match inferFormat source requested with
    | some format => return format
    | none => Session.abort "Assembly source can only be assembled into `hack` output format."

/-- Settles the output path, which must differ from the sources. The empty path counts as none. -/
def checkOutput (sources : List Path) (given : String) (format : Format) : Session m Path := do
  match if given == "" then inferOutput sources format else .ok (.ofString given) with
  | .error failure => throw (.escape failure)
  | .ok output =>
    if sources.contains output then
      Session.abort ("Inferred/specified output file path will rewrite existing input file, " ++
        "please specify another output path.")
    else return output

def checkSettings (s : Settings) : Session m Request := do
  let sources ← checkSources s
  let requested ← filled (.breach .formatLeftBlank) s.format
  let format ← checkFormat sources requested
  let output ← checkOutput sources s.output format
  let tempBase ← filled .numberLeftBlank s.tempBase
  if tempBase < 0 then Session.abort "Temp segment base must be an non-negative address."
  if s.execute && format != .hack then
    Session.abort ("Execution requires binary output, " ++
      "remove `--output-format asm` or `--execute` flag.")
  let cycles ← filled .numberLeftBlank s.cycles
  return {
    sources, output, format, tempBase, cycles
    version := s.version
    verbose := s.verbose
    symbols := s.symbols
    strict := s.strict
    comments := s.comments
    execute := s.execute
    friendly := s.friendly }

/-- Reads and checks the command line. -/
def readRequest (program : String) (words : List String) : Session m Request := do
  checkSettings (← readWords program words)

end

end HackToolchain.CommandLine
