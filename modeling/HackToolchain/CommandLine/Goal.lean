import HackToolchain.Build
import HackToolchain.CommandLine.Request
import HackToolchain.Machine.Cpu
import HackToolchain.Machine.Rom
/-!
The four things a request can ask for: showing the version, assembling, translating, and building,
which is both. What was assembled can be executed, from the file it was written to.
-/

namespace HackToolchain.CommandLine

/-- How the program is started. -/
structure Invocation where
  /-- The path it is started with. -/
  startedAs : String
  words : List String
  /-- The version that is installed, if one is. -/
  version : Option String := none
  /-- The machine, in the words of the version goal. -/
  platform : String
  /-- What the program runs on there, in the words of the version goal. -/
  runtime : String

abbrev Goal := Interaction Failure

section

variable {m : Type → Type} [Monad m] [Host m] {α : Type}

namespace Goal

/-- Shows a message to those who asked for it. -/
def tell (r : Request) (level : Level) (text : String) : Goal m Unit :=
  Interaction.display (Console.message level text r.verbose)

/-- Builds something and shows the warnings, also those before a failure. -/
def report (r : Request) (build : m (Build.Outcome α)) : Goal m α := do
  let outcome ← Interaction.onHost build
  outcome.warnings.forM (tell r .warning)
  MonadExcept.ofExcept outcome.result

end Goal

/-- The lines that describe the toolchain and where it runs. -/
def versionLines (i : Invocation) (r : Request) : List String :=
  ["[Hackforge toolchain]",
   "\tVersion: " ++ i.version.getD "unknown (not installed)",
   "Target platform:",
   "\tWord width: " ++ Text.decimal Platform.wordWidth ++ " bits",
   "\tAddress space: " ++ Text.decimal Platform.addressSpace ++ " words",
   "\tScreen / keyboard: " ++ Text.decimal Platform.screen ++ " / " ++
     Text.decimal Platform.keyboard,
   "\tTemp segment base: " ++ Text.decimal r.tempBase,
   "Host machine:",
   "\tPlatform: " ++ i.platform,
   "\tPython: " ++ i.runtime]

/-- A text moved to the right end of a column. -/
def alignRight (width : Nat) (text : String) : String :=
  String.ofList (List.replicate (width - text.length) ' ') ++ text

/-- Symbols are listed by address, those of one address by name. -/
def listedBefore (x y : String × Int) : Bool :=
  x.2 < y.2 || (x.2 == y.2 && x.1 ≤ y.1)

/-- The lines that list every symbol. -/
def symbolLines (symbols : SymbolTable) : List String :=
  "[Symbol table]" :: (symbols.toList.mergeSort listedBefore).map fun (name, address) =>
    "\t" ++ alignRight 5 (Text.decimal address) ++ "\t" ++ name

/-- The lines that describe a processor: for bytecode the stack, otherwise the virtual
registers. -/
def stateLines (cpu : Cpu) (bytecode : Bool) : List String :=
  ["[Execution state]",
   "\tA = " ++ Text.decimal cpu.a.signed ++ ", D = " ++ Text.decimal cpu.d.signed ++ ", PC = " ++
     Text.decimal cpu.pc] ++
  if bytecode then
    ["\tStack: [" ++ ", ".intercalate (cpu.stack.map Text.decimal) ++ "]"]
  else
    cpu.virtualRegisters.zipIdx.map fun (value, register) =>
      "\tR" ++ Text.decimal register ++ " = " ++ Text.decimal value

/-- Runs the output on a processor and shows the state it stops in. -/
def executeOutput (r : Request) (bytecode : Bool) : Goal m Unit := do
  let lines ← Interaction.onHostOr id (Build.readLines r.output)
  let words ← MonadExcept.ofExcept (romWords lines)
  let cpu ← MonadExcept.ofExcept (Cpu.load words)
  let cpu := if bytecode then cpu.withEmptyStack else cpu
  Goal.tell r .info ("Executing `" ++ r.output.name ++ "` (" ++ Text.decimal words.length ++
    " instructions)...")
  let (count, cpu) := cpu.run (fun _ => false) r.cycles.toNat
  if !cpu.halted then
    Interaction.display (Console.message .warning ("Program did not halt within " ++
      Text.decimal r.cycles ++ " cycles, displaying state at the moment of stop.") true)
  Goal.tell r .info ("Program executed " ++ Text.decimal count ++ " instructions!")
  Interaction.printLines (stateLines cpu bytecode)

/-- Shows what is asked for after assembling. -/
def showResults (r : Request) (symbols : SymbolTable) (bytecode : Bool) : Goal m Unit := do
  if r.symbols then Interaction.printLines (symbolLines symbols)
  if r.execute then executeOutput r bytecode

def Request.translatorOptions (r : Request) : Translator.Options :=
  { comments := r.comments, strict := r.strict, tempBase := r.tempBase }

def assembleSource (r : Request) (source : Path) : Goal m Unit := do
  Goal.tell r .info ("Assembling `" ++ source.name ++ "`...")
  let symbols ← Goal.report r (Build.assembleFile source r.output r.strict)
  Goal.tell r .info ("Assembled input file down to `" ++ r.output.name ++ "` (" ++
    Text.decimal symbols.size ++ " symbols known)!")
  showResults r symbols false

def buildSource (r : Request) (source : Path) : Goal m Unit := do
  Goal.tell r .info ("Translating and assembling `" ++ source.name ++ "`...")
  let symbols ← Goal.report r (Build.buildFile source r.output r.translatorOptions r.strict)
  Goal.tell r .info ("Built input file down to `" ++ r.output.name ++ "`!")
  showResults r symbols true

def translateSource (r : Request) (source : Path) : Goal m Unit := do
  Goal.tell r .info ("Translating `" ++ source.name ++ "`...")
  if r.symbols then
    Goal.tell r .warning "Symbol table is only available when assembling, ignoring `--symbols`."
  Goal.report r (Build.translateFile source r.output r.translatorOptions)
  Goal.tell r .info ("Translated input file down to `" ++ r.output.name ++ "`!")

/-- Does what is asked for. Only the version can be shown without a source. -/
def perform (i : Invocation) (r : Request) : Goal m Unit :=
  if r.version then Interaction.printLines (versionLines i r)
  else
    match r.sources with
    | [] => throw .outOfRange
    | source :: _ =>
      if source.suffix == assemblySuffix then assembleSource r source
      else if r.format = .hack then buildSource r source
      else translateSource r source

end

end HackToolchain.CommandLine
