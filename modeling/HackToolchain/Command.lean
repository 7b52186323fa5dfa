import HackToolchain.Failure
/-!
Commands of the stack machine: push and pop between the stack and a memory segment, arithmetic on
the values on top of the stack, and the flow and function commands, which are recognized but not
translated.
-/

namespace HackToolchain

inductive Segment where
  | argument
  | «local»
  | static
  | constant
  | this
  | that
  | pointer
  | temp
deriving DecidableEq, Repr

namespace Segment

def word : Segment → String
  | argument => "argument"
  | «local» => "local"
  | static => "static"
  | constant => "constant"
  | this => "this"
  | that => "that"
  | pointer => "pointer"
  | temp => "temp"

/-- The name of a segment in messages. -/
def title (s : Segment) : String :=
  s.word.map Char.toUpper

def all : List Segment :=
  [argument, .local, static, constant, this, that, pointer, temp]

/-- The segment with this name in small letters. -/
def ofWord? (word : String) : Option Segment :=
  all.find? (·.word == word)

/-- The register that holds the base address of a segment, for the segments that have one. -/
def baseRegister? : Segment → Option String
  | argument => some "ARG"
  | «local» => some "LCL"
  | this => some "THIS"
  | that => some "THAT"
  | static | constant | pointer | temp => none

/-- Whether the addresses of the cells are known before the program runs. -/
def isDirect : Segment → Bool
  | pointer | temp | static => true
  | argument | «local» | constant | this | that => false

end Segment

inductive Operation where
  | add
  | sub
  | and
  | or
  | eq
  | lt
  | gt
  | neg
  | not
deriving DecidableEq, Repr

namespace Operation

def word : Operation → String
  | add => "add"
  | sub => "sub"
  | and => "and"
  | or => "or"
  | eq => "eq"
  | lt => "lt"
  | gt => "gt"
  | neg => "neg"
  | not => "not"

/-- The name of an operation in messages. -/
def title (o : Operation) : String :=
  o.word.map Char.toUpper

def all : List Operation :=
  [add, sub, and, or, eq, lt, gt, neg, not]

/-- The operation with this name in small letters. -/
def ofWord? (word : String) : Option Operation :=
  all.find? (·.word == word)

/-- The computation of an operation on two values, the second from the top in M and the top in
D. -/
def binary? : Operation → Option String
  | add => some "D+M"
  | sub => some "M-D"
  | and => some "D&M"
  | or => some "D|M"
  | eq | lt | gt | neg | not => none

/-- The sign of an operation on one value. -/
def unary? : Operation → Option String
  | neg => some "-"
  | not => some "!"
  | add | sub | and | or | eq | lt | gt => none

/-- The jump that a comparison takes on the difference of its two values. -/
def comparison? : Operation → Option String
  | eq => some "JEQ"
  | lt => some "JLT"
  | gt => some "JGT"
  | add | sub | and | or | neg | not => none

end Operation

/-- Commands for program flow and functions. -/
inductive Flow where
  | label
  | goto
  | ifGoto
  | function
  | call
  | «return»
deriving DecidableEq, Repr

namespace Flow

def word : Flow → String
  | label => "label"
  | goto => "goto"
  | ifGoto => "if-goto"
  | function => "function"
  | call => "call"
  | «return» => "return"

def all : List Flow :=
  [label, goto, ifGoto, function, call, .return]

def ofWord? (word : String) : Option Flow :=
  all.find? (·.word == word)

end Flow

inductive Command where
  | push (segment : Segment) (offset : Nat)
  | pop (segment : Segment) (offset : Nat)
  | arithmetic (operation : Operation)
  | unsupported (flow : Flow) (text : String)
  | unrecognized (text : String)
deriving DecidableEq, Repr

namespace Command

/-- A command that pops into a cell. Constants are no cells. -/
def popInto (segment : Segment) (offset : Nat) : Except Failure Command :=
  if segment = .constant then .error (.breach .popIntoConstant) else .ok (.pop segment offset)

end Command

end HackToolchain
