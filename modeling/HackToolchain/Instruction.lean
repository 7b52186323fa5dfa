/-!
Instructions of the assembly language as they are written. An address instruction and a label
carry a symbol, a compute instruction carries the text of its computation and of its jump: which
texts the machine knows is a question of encoding, not of grammar. `render` writes an instruction
the way the grammar reads it.
-/

namespace HackToolchain

/-- The registers a compute instruction stores into. -/
structure Destination where
  a : Bool := false
  d : Bool := false
  m : Bool := false
deriving DecidableEq, Repr

namespace Destination

def none : Destination := {}

/-- The letters of the registers, in the order A, D, M. -/
def letters (dest : Destination) : List Char :=
  (if dest.a then ['A'] else []) ++ (if dest.d then ['D'] else []) ++
    (if dest.m then ['M'] else [])

/-- The registers named in a text. -/
def ofLetters (cs : List Char) : Destination where
  a := cs.contains 'A'
  d := cs.contains 'D'
  m := cs.contains 'M'

end Destination

inductive Instruction where
  /-- Loads the address of a symbol, or a literal, into the A register. -/
  | address (symbol : String)
  /-- Names the instruction that follows. -/
  | label (name : String)
  | compute (dest : Destination) (computation jump : String)
  /-- Text that no instruction has. -/
  | unrecognized (text : String)
deriving DecidableEq, Repr

namespace Instruction

/-- The text of an instruction. -/
def render : Instruction → String
  | address symbol => "@" ++ symbol
  | label name => "(" ++ name ++ ")"
  | compute dest computation jump =>
    (if dest = .none then "" else String.ofList dest.letters ++ "=") ++ computation ++
      (if jump = "" then "" else ";" ++ jump)
  | unrecognized text => text

/-- Whether the instruction takes a place in the instruction memory. -/
def isExecutable : Instruction → Bool
  | address _ | compute .. => true
  | label _ | unrecognized _ => false

end Instruction

end HackToolchain
