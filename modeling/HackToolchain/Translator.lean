import HackToolchain.Command.Grammar
import HackToolchain.Translator.Template
/-!
Stack machine commands become assembly, one unit at a time. Each command is
translated by itself; a command that is refused leaves at most its comment in the buffer.
-/

namespace HackToolchain

namespace Translator

def push (segment : Segment) (offset : Nat) : Translating Unit := do
  if segment = .constant then loadConstant offset
  else if segment.isDirect then loadDirect segment offset
  else
    pointToBased segment offset
    emit [setD "M"]
  emit pushD

def pop (segment : Segment) (offset : Nat) : Translating Unit := do
  emit popD
  if segment.isDirect then storeDirect segment offset else storeBased segment offset

def arithmetic (operation : Operation) : Translating Unit :=
  if operation.binary?.isSome then combine operation
  else if operation.unary?.isSome then change operation
  else if operation.comparison?.isSome then compare operation
  else throw (.breach (.unhandledOperation operation.title))

/-- What becomes of a command that is not known. A single word can only have been meant as an
operation. -/
def skipUnrecognized (text : String) (location : Option Location) : Translating Unit := do
  if (← get).options.strict then
    if (Text.words text.toList).length == 1 then
      discard (MonadExcept.ofExcept (Operation.parse text location))
    throw (Cause.at (.unrecognizedCommand text) location)
  warn ("Skipping unrecognized command '" ++ text ++ "'" ++ Location.describe location)

/-- Writes the code of a command. -/
def translate (text : String) (location : Option Location) : Command → Translating Unit
  | .push segment offset => push segment offset
  | .pop segment offset => pop segment offset
  | .arithmetic operation => arithmetic operation
  | .unsupported flow _ =>
    warn ("Skipping unsupported " ++ flow.word ++ " command '" ++ text ++ "'" ++
      Location.describe location)
  | .unrecognized _ => skipUnrecognized text location

/-- The assembly of one line. -/
def translateLine (line : Line) : Translating (List String) := do
  if (← get).finalized then throw (.breach .translatorFinalized)
  if line.content == "" then return []
  let command ← MonadExcept.ofExcept (Command.classify line.content line.location)
  comment line.content
  translate line.content line.location command
  flush

/-- Ends the unit. -/
def finalize : Translating (List String) := do
  modify fun t => { t with finalized := true }
  if (← get).options.endLoop then loopForever
  flush

/-- The assembly of a whole unit. -/
def translateUnit (lines : List Line) : Translating (List String) := do
  let code ← lines.mapM translateLine
  return code.flatten ++ (← finalize)

end Translator

/-- Translates a unit from the beginning. -/
def translateLines (name : String) (options : Translator.Options) (lines : List Line) :
    EStateM.Result Failure Translator (List String) :=
  (Translator.translateUnit lines).run (.start name options)

end HackToolchain
