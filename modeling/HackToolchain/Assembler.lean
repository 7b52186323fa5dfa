import HackToolchain.Instruction.Encoding
import HackToolchain.Instruction.Grammar
import HackToolchain.SymbolTable
/-!
The assembler: one run over a source, in two passes. The first pass binds every label to the
number of instructions before it, the second gives each instruction its word and allocates
variables for the symbols that are still unknown, so that labels always win over variables. A
step that fails leaves behind what it had done before it failed.
-/

namespace HackToolchain

/-- The state of one run. -/
structure Assembler where
  symbols : SymbolTable := .predefined
  /-- The instructions counted so far. -/
  index : Nat := 0
  resolved : Bool := false
  finalized : Bool := false
  /-- Whether lines of no known shape are refused instead of skipped. -/
  strict : Bool := false
  warnings : Array String := #[]

/-- A step of a run. -/
abbrev Assembling := EStateM Failure Assembler

namespace Assembler

def warn (text : String) : Assembling Unit :=
  modify fun s => { s with warnings := s.warnings.push text }

/-- Binds a label to the number of instructions counted so far. -/
def bindLabel (name : String) (location : Option Location) : Assembling Unit :=
  fun ⟨symbols, index, resolved, finalized, strict, warnings⟩ =>
    match symbols.add name index location with
    | .ok symbols => .ok () ⟨symbols, index, resolved, finalized, strict, warnings⟩
    | .error failure => .error failure ⟨symbols, index, resolved, finalized, strict, warnings⟩

/-- Counts one instruction, as long as the instruction memory can hold it. -/
def countInstruction (location : Option Location) : Assembling Unit := do
  modify fun s => { s with index := s.index + 1 }
  let count := (← get).index
  if Platform.addressSpace < count then
    throw (Cause.at
      (.addressSpaceExhausted (count - 1) Platform.addressSpace .instructions) location)

/-- The first pass over one line. -/
def resolveLine (line : Line) : Assembling Unit := do
  if line.content == "" then return
  match ← MonadExcept.ofExcept (Instruction.classify line.content line.location) with
  | .label name => bindLabel name line.location
  | .address _ | .compute .. => countInstruction line.location
  | .unrecognized _ => return

/-- The first pass. -/
def resolveLabels (lines : List Line) : Assembling Unit := do
  if (← get).resolved then throw (.breach .labelsAlreadyResolved)
  lines.forM resolveLine
  modify fun s => { s with resolved := true }

/-- The address of a symbol that is not a literal. -/
def symbolAddress (name : String) (location : Option Location) : Assembling Int :=
  fun ⟨symbols, index, resolved, finalized, strict, warnings⟩ =>
    match symbols.getOrAllocate name location with
    | .ok (address, symbols) => .ok address ⟨symbols, index, resolved, finalized, strict, warnings⟩
    | .error failure => .error failure ⟨symbols, index, resolved, finalized, strict, warnings⟩

/-- The address an address instruction loads. -/
def operandAddress (symbol : String) (location : Option Location) : Assembling Int :=
  if Text.isNumeral symbol.toList then
    match Text.readNumeral symbol.toList with
    | .ok n => return n
    | .error fault => throw (.numeral fault)
  else symbolAddress symbol location

/-- What becomes of a line that is no instruction. -/
def skipUnrecognized (text : String) (location : Option Location) : Assembling Unit := do
  if (← get).strict then
    throw (Cause.at (.malformedInstruction text Instruction.noGrammar) location)
  warn ("Skipping unrecognized line '" ++ text ++ "'" ++ Location.describe location)

/-- The word of an instruction, if it has one. -/
def encode (text : String) (location : Option Location) : Instruction → Assembling (Option Word)
  | .address symbol => do
    let address ← operandAddress symbol location
    some <$> MonadExcept.ofExcept (Instruction.encodeAddress address location)
  | .compute dest computation jump =>
    some <$> MonadExcept.ofExcept (Instruction.encodeCompute dest computation jump location)
  | .label _ => return none
  | .unrecognized _ => do
    skipUnrecognized text location
    return none

/-- The second pass over one line. -/
def translateLine (line : Line) : Assembling (Option Word) := do
  let s ← get
  if !s.resolved then throw (.breach .labelsNotResolved)
  if s.finalized then throw (.breach .assemblerFinalized)
  if line.content == "" then return none
  encode line.content line.location
    (← MonadExcept.ofExcept (Instruction.classify line.content line.location))

/-- Ends the run. -/
def finalize : Assembling Unit :=
  modify fun s => { s with finalized := true }

/-- Assembles a whole source. -/
def assemble (lines : List Line) : Assembling (List Word) := do
  resolveLabels lines
  let words ← lines.filterMapM translateLine
  finalize
  return words

end Assembler

/-- Assembles a source from the beginning. -/
def assembleLines (strict : Bool) (lines : List Line) :
    EStateM.Result Failure Assembler (List Word) :=
  (Assembler.assemble lines).run { strict }

end HackToolchain
