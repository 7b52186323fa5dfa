import HackToolchain.Instruction
import HackToolchain.Instruction.Grammar
/-!
The state of a translator. Lines are written into a buffer and handed out when a command is
done; a counter makes the labels of comparisons unique. The name of the translated unit is a
namespace for its static variables, so it is made a symbol name first.
-/

namespace HackToolchain

namespace Translator

/-- How commands are translated. -/
structure Options where
  /-- Whether every command is preceded by itself as a comment. -/
  comments : Bool := false
  /-- Whether unknown commands are refused instead of skipped. -/
  strict : Bool := false
  /-- Whether the unit ends with a loop that never ends. -/
  endLoop : Bool := false
  /-- What the labels of comparisons begin with. -/
  labelStart : String := "LABEL"
  /-- The address of the first cell of `temp`. -/
  tempBase : Int := 4
  /-- The address of the first cell of `pointer`. -/
  pointerBase : Int := 3
deriving DecidableEq, Repr

/-- A text made a symbol name: what cannot stand in one becomes an underscore, and an underscore
is put in front if there is nothing to begin with or a digit. -/
def sanitize (cs : List Char) : List Char :=
  match cs.map fun c => if Instruction.isSymbolChar c then c else '_' with
  | [] => ['_']
  | c :: rest => if c.isDigit then '_' :: c :: rest else c :: rest

end Translator

structure Translator where
  /-- The name of the unit. -/
  name : String
  options : Translator.Options := {}
  buffer : Array String := #[]
  /-- The comparisons translated so far. -/
  labels : Nat := 0
  finalized : Bool := false
  warnings : Array String := #[]

/-- A step of a translator. -/
abbrev Translating := EStateM Failure Translator

namespace Translator

/-- A translator at the start of a unit. -/
def start (name : String) (options : Options) : Translator :=
  { name := String.ofList (sanitize name.toList), options }

def write (lines : List String) : Translating Unit :=
  modify fun t => { t with buffer := t.buffer ++ lines }

/-- Writes instructions. -/
def emit (code : List Instruction) : Translating Unit :=
  write (code.map Instruction.render)

def comment (text : String) : Translating Unit := do
  if (← get).options.comments then write ["// " ++ text]

def warn (text : String) : Translating Unit :=
  modify fun t => { t with warnings := t.warnings.push text }

/-- A new beginning for the labels of one comparison. -/
def mintLabel : Translating String := do
  let t ← get
  set { t with labels := t.labels + 1 }
  return t.options.labelStart ++ "." ++ t.labels.repr

/-- A number as it stands in an instruction. -/
def numeral (n : Int) : Translating String :=
  match Text.writeNumeral n with
  | .ok text => return text
  | .error fault => throw (.numeral fault)

/-- The symbol of a static variable. -/
def staticSymbol (offset : Int) : Translating String := do
  let digits ← numeral offset
  return (← get).name ++ "." ++ digits

/-- Takes what has been written. -/
def flush : Translating (List String) := do
  let t ← get
  set { t with buffer := #[] }
  return t.buffer.toList

end Translator

end HackToolchain
