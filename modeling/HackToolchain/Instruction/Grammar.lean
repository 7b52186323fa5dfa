import HackToolchain.Failure
import HackToolchain.Instruction
/-!
The grammar of instructions. What begins with `@` is an address instruction and what begins with
`(` a label, or else malformed; a compute instruction is `dest=comp;jump`, where the destination
and the jump may be missing, and so may the computation if there is a jump. Everything else is
unrecognized, which is not an error of the grammar.
-/

namespace HackToolchain.Instruction

/-- The characters that may begin a symbol. -/
def isSymbolStart (c : Char) : Bool :=
  c.isAlpha || c == '_' || c == '.' || c == '$' || c == ':'

/-- The characters that may follow in a symbol. -/
def isSymbolChar (c : Char) : Bool :=
  isSymbolStart c || c.isDigit

/-- The names of symbols. A name cannot begin with a digit, so it is never a literal. -/
def isSymbolName : List Char → Bool
  | [] => false
  | c :: cs => isSymbolStart c && cs.all isSymbolChar

def isRegister (c : Char) : Bool :=
  c == 'A' || c == 'M' || c == 'D'

def isTerm (c : Char) : Bool :=
  isRegister c || c == '0' || c == '1'

def isUnary (c : Char) : Bool :=
  c == '-' || c == '!'

def isBinary (c : Char) : Bool :=
  c == '-' || c == '+' || c == '&' || c == '|'

/-- One or two terms with an operator between them. -/
def isSum : List Char → Bool
  | [x] => isTerm x
  | [x, op, y] => isTerm x && isBinary op && isTerm y
  | _ => false

/-- The shape of a computation: a sum, possibly with a sign before it. -/
def isComputation : List Char → Bool
  | [] => false
  | c :: cs => isSum (c :: cs) || (isUnary c && isSum cs)

/-- The shape of a jump: one or more capital letters. -/
def isJump (cs : List Char) : Bool :=
  !cs.isEmpty && cs.all Char.isUpper

/-- The three parts of a compute instruction, each possibly empty. -/
structure Parts where
  dest : List Char
  computation : List Char
  jump : List Char
deriving DecidableEq, Repr

/-- Cuts the text after the destination into computation and jump. -/
def Parts.afterDest? (dest cs : List Char) : Option Parts :=
  let computation := cs.takeWhile (· != ';')
  if computation.isEmpty || isComputation computation then
    match cs.dropWhile (· != ';') with
    | [] => some ⟨dest, computation, []⟩
    | _ :: jump => if isJump jump then some ⟨dest, computation, jump⟩ else none
  else none

/-- Cuts a text into the parts of a compute instruction. -/
def Parts.ofText? (cs : List Char) : Option Parts :=
  let dest := cs.takeWhile isRegister
  match cs.dropWhile isRegister with
  | '=' :: rest => if 1 ≤ dest.length && dest.length ≤ 3 then afterDest? dest rest else none
  | _ => afterDest? [] cs

/-- Whether a character occurs twice. -/
def hasRepetition : List Char → Bool
  | [] => false
  | c :: cs => cs.contains c || hasRepetition cs

def missingSymbol : String :=
  "Address instruction requires an symbol or an literal after '@'"

def badSymbol : String :=
  "Address must be an non-negative decimal literal or an symbol name " ++
    "(letters, digits, '_', '.', '$', ':' and not starting with digit)"

def badLabel : String :=
  "Label definition must be an symbol name enclosed in parentheses, e.g '(LOOP)'"

def nothingToCompute : String :=
  "Compute instruction requires an computation or an jump (or both)"

def repeatedRegisters (dest : List Char) : String :=
  "Destination '" ++ String.ofList dest ++ "' has repeated registers"

def noGrammar : String :=
  "Line does not match any instruction grammar (address, label or compute instruction)"

/-- The instruction that a text is, or the reason why it is malformed. -/
def parse (text : String) : Except String Instruction :=
  match text.toList with
  | '@' :: rest =>
    let symbol := Text.trim rest
    if symbol.isEmpty then .error missingSymbol
    else if Text.isNumeral symbol || isSymbolName symbol then
      .ok (.address (String.ofList symbol))
    else .error badSymbol
  | '(' :: rest =>
    if rest.getLast? = some ')' && isSymbolName rest.dropLast then
      .ok (.label (String.ofList rest.dropLast))
    else .error badLabel
  | cs =>
    match Parts.ofText? cs with
    | none => .ok (.unrecognized text)
    | some parts =>
      if parts.computation.isEmpty && parts.jump.isEmpty then .error nothingToCompute
      else if hasRepetition parts.dest then .error (repeatedRegisters parts.dest)
      else
        .ok (.compute (.ofLetters parts.dest) (String.ofList parts.computation)
          (String.ofList parts.jump))

/-- The instruction on a line whose text is `text`. -/
def classify (text : String) (location : Option Location) : Except Failure Instruction :=
  match parse text with
  | .ok instruction => .ok instruction
  | .error reason => .error (Cause.at (.malformedInstruction text reason) location)

end HackToolchain.Instruction
