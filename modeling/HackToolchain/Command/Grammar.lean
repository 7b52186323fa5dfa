import HackToolchain.Command
import HackToolchain.Platform
/-!
The grammar of commands. A line is its words; the first word, in any case, decides what the
command is, and the number of the others must fit it. Words are separated by any blanks.
-/

namespace HackToolchain

/-- The segment with this name, in any case. -/
def Segment.parse (word : String) (location : Option Location) : Except Failure Segment :=
  match Segment.ofWord? (String.ofList (Text.lowercase word.toList)) with
  | some segment => .ok segment
  | none => .error (Cause.at (.unknownSegment word) location)

/-- The operation with this name, in any case. -/
def Operation.parse (word : String) (location : Option Location) : Except Failure Operation :=
  match Operation.ofWord? (String.ofList (Text.lowercase word.toList)) with
  | some operation => .ok operation
  | none => .error (Cause.at (.unknownOperation word) location)

namespace Command

/-- Constants stay below this limit, because they must fit into an address instruction. -/
def constantLimit : Nat := 32768

def wrongOperandCount (word : String) (count : Nat) : String :=
  "Expected exactly two operands (segment and offset) for '" ++ word ++ "', but got " ++ count.repr

def badOffset (offset : List Char) : String :=
  "Offset must be an non-negative integer, but got '" ++ String.ofList offset ++ "'"

def offsetOutOfBounds (segment : Segment) (offset limit : Nat) : String :=
  "Offset " ++ offset.repr ++ " is out of '" ++ segment.word ++
    "' segment bounds (expected less than " ++ limit.repr ++ ")"

def constantNotAddressable : String :=
  "Constant segment is not addressable, it cannot be an target of pop"

def unexpectedOperands (word : String) (count : Nat) : String :=
  "Arithmetic command '" ++ word ++ "' takes no operands, but got " ++ count.repr

/-- The command `push` or `pop` on a line, from its operands. -/
def parseAccess (text : String) (location : Option Location) (isPush : Bool)
    (operands : List (List Char)) : Except Failure Command := do
  let refuse (reason : String) : Except Failure Command :=
    .error (Cause.at (.invalidOperands text reason) location)
  match operands with
  | [segmentWord, offsetWord] =>
    let segment ← Segment.parse (String.ofList segmentWord) location
    if !Text.isNumeral offsetWord then refuse (badOffset offsetWord)
    else
      match Text.readNumeral offsetWord with
      | .error fault => .error (.numeral fault)
      | .ok offset =>
        if segment = .constant && constantLimit ≤ offset then
          refuse (offsetOutOfBounds segment offset constantLimit)
        else if isPush then .ok (.push segment offset)
        else if segment = .constant then refuse constantNotAddressable
        else popInto segment offset
  | _ => refuse (wrongOperandCount (if isPush then "push" else "pop") operands.length)

/-- The command on a line whose text is `text`. -/
def classify (text : String) (location : Option Location) : Except Failure Command :=
  match Text.words text.toList with
  | [] => .error (.breach .emptyCommand)
  | first :: operands =>
    let word := String.ofList (Text.lowercase first)
    if word == "push" then parseAccess text location true operands
    else if word == "pop" then parseAccess text location false operands
    else
      match Operation.ofWord? word with
      | some operation =>
        if operands.isEmpty then .ok (.arithmetic operation)
        else
          .error (Cause.at
            (.invalidOperands text (unexpectedOperands word operands.length)) location)
      | none =>
        match Flow.ofWord? word with
        | some flow => .ok (.unsupported flow text)
        | none => .ok (.unrecognized text)

end Command

end HackToolchain
