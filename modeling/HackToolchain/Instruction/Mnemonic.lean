import HackToolchain.Machine.Word
/-!
The computations and jumps the machine knows. Each has the text it is written with, the bits it
is encoded with, and a meaning: the word a computation yields from D and from the second operand,
and the numbers for which a jump is taken.
-/

namespace HackToolchain

/-- The second operand of the arithmetic unit: the A register, or the memory cell it points to. -/
inductive Operand where
  | a
  | m
deriving DecidableEq, Repr

namespace Operand

def letter : Operand → String
  | a => "A"
  | m => "M"

/-- The bit that selects the operand. -/
def bit : Operand → BitVec 1
  | a => 0
  | m => 1

end Operand

inductive Computation where
  | zero
  | one
  | minusOne
  | d
  | y (operand : Operand)
  | notD
  | notY (operand : Operand)
  | negD
  | negY (operand : Operand)
  | succD
  | succY (operand : Operand)
  | predD
  | predY (operand : Operand)
  | dPlusY (operand : Operand)
  | dMinusY (operand : Operand)
  | yMinusD (operand : Operand)
  | dAndY (operand : Operand)
  | dOrY (operand : Operand)
deriving DecidableEq, Repr

namespace Computation

/-- The one way to write a computation. -/
def text : Computation → String
  | zero => "0"
  | one => "1"
  | minusOne => "-1"
  | d => "D"
  | y o => o.letter
  | notD => "!D"
  | notY o => "!" ++ o.letter
  | negD => "-D"
  | negY o => "-" ++ o.letter
  | succD => "D+1"
  | succY o => o.letter ++ "+1"
  | predD => "D-1"
  | predY o => o.letter ++ "-1"
  | dPlusY o => "D+" ++ o.letter
  | dMinusY o => "D-" ++ o.letter
  | yMinusD o => o.letter ++ "-D"
  | dAndY o => "D&" ++ o.letter
  | dOrY o => "D|" ++ o.letter

/-- The operand a computation reads besides D; those that read none leave it at A. -/
def operand : Computation → Operand
  | y o | notY o | negY o | succY o | predY o | dPlusY o | dMinusY o | yMinusD o | dAndY o
  | dOrY o => o
  | zero | one | minusOne | d | notD | negD | succD | predD => .a

/-- The six control bits of the arithmetic unit. -/
def control : Computation → BitVec 6
  | zero => 0b101010
  | one => 0b111111
  | minusOne => 0b111010
  | d => 0b001100
  | y _ => 0b110000
  | notD => 0b001101
  | notY _ => 0b110001
  | negD => 0b001111
  | negY _ => 0b110011
  | succD => 0b011111
  | succY _ => 0b110111
  | predD => 0b001110
  | predY _ => 0b110010
  | dPlusY _ => 0b000010
  | dMinusY _ => 0b010011
  | yMinusD _ => 0b000111
  | dAndY _ => 0b000000
  | dOrY _ => 0b010101

/-- The bits of a computation: the operand and the control. -/
def code (c : Computation) : BitVec 7 :=
  c.operand.bit ++ c.control

/-- The word a computation yields, given D and the second operand. -/
def value (dReg operand : Word) : Computation → Word
  | zero => 0
  | one => 1
  | minusOne => -1
  | d => dReg
  | y _ => operand
  | notD => ~~~dReg
  | notY _ => ~~~operand
  | negD => -dReg
  | negY _ => -operand
  | succD => dReg + 1
  | succY _ => operand + 1
  | predD => dReg - 1
  | predY _ => operand - 1
  | dPlusY _ => dReg + operand
  | dMinusY _ => dReg - operand
  | yMinusD _ => operand - dReg
  | dAndY _ => dReg &&& operand
  | dOrY _ => dReg ||| operand

/-- Every computation. -/
def all : List Computation :=
  [zero, one, minusOne, d, y .a, y .m, notD, notY .a, notY .m, negD, negY .a, negY .m, succD,
   succY .a, succY .m, predD, predY .a, predY .m, dPlusY .a, dPlusY .m, dMinusY .a, dMinusY .m,
   yMinusD .a, yMinusD .m, dAndY .a, dAndY .m, dOrY .a, dOrY .m]

/-- The computation written so, with its operands in this order. -/
def ofText? (text : String) : Option Computation :=
  all.find? (·.text == text)

end Computation

inductive Jump where
  | never
  | gt
  | eq
  | ge
  | lt
  | ne
  | le
  | always
deriving DecidableEq, Repr

namespace Jump

/-- How a jump is written; no jump is written as nothing. -/
def text : Jump → String
  | never => ""
  | gt => "JGT"
  | eq => "JEQ"
  | ge => "JGE"
  | lt => "JLT"
  | ne => "JNE"
  | le => "JLE"
  | always => "JMP"

def code : Jump → BitVec 3
  | never => 0b000
  | gt => 0b001
  | eq => 0b010
  | ge => 0b011
  | lt => 0b100
  | ne => 0b101
  | le => 0b110
  | always => 0b111

/-- Whether the jump is taken on a result that stands for this number. -/
def taken (n : Int) : Jump → Bool
  | never => false
  | gt => 0 < n
  | eq => n = 0
  | ge => 0 ≤ n
  | lt => n < 0
  | ne => n ≠ 0
  | le => n ≤ 0
  | always => true

/-- Every jump. -/
def all : List Jump :=
  [never, gt, eq, ge, lt, ne, le, always]

def ofText? (text : String) : Option Jump :=
  all.find? (·.text == text)

end Jump

end HackToolchain
