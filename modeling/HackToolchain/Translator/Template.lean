import HackToolchain.Command
import HackToolchain.Translator.Basic
/-!
The instruction sequences that commands are made of. `SP` always holds the address one past the
top of the stack; D carries a value from one sequence to the next; `R13` and `R14` keep a value
and an address for a while. A sequence that cannot be written to its end has already written its
beginning.
-/

namespace HackToolchain.Translator

/-- Loads the address of a symbol. -/
def load (symbol : String) : Instruction :=
  .address symbol

def setA (computation : String) : Instruction :=
  .compute { a := true } computation ""

def setD (computation : String) : Instruction :=
  .compute { d := true } computation ""

def setM (computation : String) : Instruction :=
  .compute { m := true } computation ""

def jumpIf (computation jump : String) : Instruction :=
  .compute .none computation jump

/-- Puts D on the stack. -/
def pushD : List Instruction :=
  [load "SP", setA "M", setM "D", load "SP", setM "M+1"]

/-- Takes the top of the stack into D. -/
def popD : List Instruction :=
  [load "SP", setA "M-1", setD "M", load "SP", setM "M-1"]

/-- Points A to the top of the stack. -/
def pointToTop : List Instruction :=
  [load "SP", setA "M-1"]

/-- The address of a cell that is known before the program runs. -/
def directAddress (segment : Segment) (offset : Int) : Translating String := do
  match segment with
  | .pointer => numeral ((← get).options.pointerBase + offset)
  | .temp => numeral ((← get).options.tempBase + offset)
  | .static => staticSymbol offset
  | .argument | .local | .constant | .this | .that => throw (.noFixedAddress segment.title)

/-- Loads a constant into D. -/
def loadConstant (value : Int) : Translating Unit := do
  if value < 0 then throw (.breach .negativeConstant)
  emit [load (← numeral value), setD "A"]

/-- Loads a directly addressed cell into D. -/
def loadDirect (segment : Segment) (offset : Int) : Translating Unit := do
  emit [load (← directAddress segment offset), setD "M"]

/-- Stores D into a directly addressed cell. -/
def storeDirect (segment : Segment) (offset : Int) : Translating Unit := do
  emit [load (← directAddress segment offset), setM "D"]

/-- The register with the base address of a segment. -/
def baseRegister (segment : Segment) : Translating String :=
  match segment.baseRegister? with
  | some register => return register
  | none => throw (.missingKey segment.title)

/-- Points A to a cell of a segment that a register points to. D is lost. -/
def pointToBased (segment : Segment) (offset : Int) : Translating Unit := do
  let digits ← numeral offset
  let register ← baseRegister segment
  emit [load digits, setD "A", load register, setA "D+M"]

/-- Stores D into a cell of a segment that a register points to. -/
def storeBased (segment : Segment) (offset : Int) : Translating Unit := do
  emit [load "R13", setM "D"]
  pointToBased segment offset
  emit [setD "A", load "R14", setM "D", load "R13", setD "M", load "R14", setA "M", setM "D"]

/-- Combines the two values on top of the stack into one. -/
def combine (operation : Operation) : Translating Unit :=
  match operation.binary? with
  | some computation => emit (popD ++ [setA "M-1", setM computation])
  | none => throw (.missingKey operation.title)

/-- Changes the value on top of the stack. -/
def change (operation : Operation) : Translating Unit :=
  match operation.unary? with
  | some sign => emit (pointToTop ++ [setM (sign ++ "M")])
  | none => throw (.missingKey operation.title)

/-- Replaces the two values on top of the stack by -1 if they compare as asked, else by 0. -/
def compare (operation : Operation) : Translating Unit :=
  match operation.comparison? with
  | some jump => do
    emit (popD ++ [load "R13", setM "D"] ++ pointToTop ++ [setD "M", load "R13", setD "D-M"])
    let label ← mintLabel
    let isTrue := label ++ ".start"
    let done := label ++ ".end"
    emit ([load isTrue, jumpIf "D" jump] ++ pointToTop ++
      [setM "0", load done, jumpIf "0" "JMP", .label isTrue] ++ pointToTop ++
      [setM "-1", .label done])
  | none => throw (.missingKey operation.title)

/-- Stays in one place for ever. -/
def loopForever : Translating Unit := do
  let label := (← get).name ++ "$END"
  emit [.label label, load label, jumpIf "0" "JMP"]

end HackToolchain.Translator
