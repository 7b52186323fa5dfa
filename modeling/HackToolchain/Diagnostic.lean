import HackToolchain.Source
import HackToolchain.Text.Lowercase
/-!
What the toolchain reports about source text: a cause, and the place where it was met. Each
diagnostic is shown as a headline, a paragraph that explains it, and the tag of its cause.
-/

namespace HackToolchain

/-- The address ranges that can run out. -/
inductive Region where
  | instructions
  | data
  | address
deriving DecidableEq, Repr

namespace Region

def hint : Region → String
  | instructions => "Program has too many instructions to be addressed by labels"
  | data => "Too many variables allocated, next one would overlap screen memory map"
  | address => "Address literal does not fit into 15 bits"

end Region

/-- Why source text is refused. -/
inductive Cause where
  | malformedInstruction (text reason : String)
  | unknownComputation (computation : String)
  | unknownJump (jump : String)
  | duplicateLabel (label : String) (boundTo : Int)
  | addressSpaceExhausted (address limit : Int) (region : Region)
  | invalidOperands (command reason : String)
  | unknownSegment (segment : String)
  | unknownOperation (operation : String)
  | unrecognizedCommand (command : String)
  | invalidMachineWord (word : String)
deriving DecidableEq, Repr

namespace Cause

/-- The name of a cause. -/
def title : Cause → String
  | malformedInstruction .. => "MalformedInstructionError"
  | unknownComputation .. => "UnknownComputationError"
  | unknownJump .. => "UnknownJumpError"
  | duplicateLabel .. => "DuplicateLabelError"
  | addressSpaceExhausted .. => "AddressSpaceExhaustedError"
  | invalidOperands .. => "InvalidOperandArityError"
  | unknownSegment .. => "UnknownSegmentError"
  | unknownOperation .. => "UnknownArithmeticOperationError"
  | unrecognizedCommand .. => "UnrecognizedCommandError"
  | invalidMachineWord .. => "InvalidMachineWordError"

/-- The name of a cause as it ends a message. -/
def tag (cause : Cause) : String :=
  "[" ++ String.ofList (Text.kebabCase cause.title.toList) ++ "]"

def headline : Cause → String
  | malformedInstruction text _ => "Malformed instruction '" ++ text ++ "'"
  | unknownComputation computation =>
    if computation == "" then "Missing computation"
    else "Unknown computation '" ++ computation ++ "'"
  | unknownJump jump => "Unknown jump '" ++ jump ++ "'"
  | duplicateLabel label _ => "Label '" ++ label ++ "' redefinition"
  | addressSpaceExhausted .. => "Address space exhausted"
  | invalidOperands command _ => "Invalid operands of command '" ++ command ++ "'"
  | unknownSegment segment => "Unknown memory segment '" ++ segment ++ "'"
  | unknownOperation operation => "Unknown arithmetic operation '" ++ operation ++ "'"
  | unrecognizedCommand command => "Unrecognized command '" ++ command ++ "'"
  | invalidMachineWord word => "Invalid machine word '" ++ word ++ "'"

def explanation : Cause → String
  | malformedInstruction _ reason => reason
  | unknownComputation computation =>
    if computation == "" then
      "Compute instruction must have an computation part to be encoded " ++
        "(e.g '0;JMP' instead of ';JMP')"
    else
      "Computation must be written exactly as in the instruction set table.\n" ++
        "Swapped operands (e.g 'M+D' instead of 'D+M') are not supported!"
  | unknownJump _ => "Expected one of: JGT, JEQ, JGE, JLT, JNE, JLE, JMP"
  | duplicateLabel _ boundTo =>
    "Symbol is already bound to address " ++ Text.decimal boundTo ++ ".\n" ++
      "Labels cannot be redefined and cannot shadow predefined symbols."
  | addressSpaceExhausted address limit region =>
    "Address " ++ Text.decimal address ++ " is out of available range (limit: " ++
      Text.decimal limit ++ ").\n" ++ region.hint
  | invalidOperands _ reason => reason
  | unknownSegment _ =>
    "Expected one of: argument, local, static, constant, this, that, pointer, temp"
  | unknownOperation _ => "Expected one of: add, sub, neg, eq, gt, lt, and, or, not"
  | unrecognizedCommand _ =>
    "Command is neither push/pop, arithmetic nor known program flow / function command.\n" ++
      "Did you mistype command name?"
  | invalidMachineWord _ => "Expected exactly 16 characters of '0' / '1'."

end Cause

/-- A cause and the place where it was met, if that is known. -/
structure Diagnostic where
  cause : Cause
  location : Option Location
deriving DecidableEq, Repr

namespace Diagnostic

def message (d : Diagnostic) : String :=
  d.cause.headline ++ Location.describe d.location ++ "!\n\n" ++ d.cause.explanation ++ "\n\n" ++
    d.cause.tag

end Diagnostic

end HackToolchain
