import HackToolchain.Failure
import HackToolchain.Instruction
import HackToolchain.Instruction.Mnemonic
import HackToolchain.Platform
/-!
Instructions as words. An address instruction is a zero bit and the address; a compute
instruction is three one bits, the computation, the destination and the jump.
-/

namespace HackToolchain

namespace Destination

/-- One bit for each register, in the order A, D, M. -/
def code (dest : Destination) : BitVec 3 :=
  BitVec.ofBool dest.a ++ BitVec.ofBool dest.d ++ BitVec.ofBool dest.m

end Destination

namespace Instruction

/-- The word of an address instruction. -/
def encodeAddress (address : Int) (location : Option Location) : Except Failure Word :=
  if 0 ≤ address && address < Platform.addressSpace then .ok (Word.ofInt address)
  else .error (Cause.at (.addressSpaceExhausted address Platform.addressSpace .address) location)

def encodeComputation (text : String) (location : Option Location) : Except Failure (BitVec 7) :=
  match Computation.ofText? text with
  | some computation => .ok computation.code
  | none => .error (Cause.at (.unknownComputation text) location)

def encodeJump (text : String) (location : Option Location) : Except Failure (BitVec 3) :=
  match Jump.ofText? text with
  | some jump => .ok jump.code
  | none => .error (Cause.at (.unknownJump text) location)

/-- The word with the given computation, destination and jump. -/
def computeWord (computation : BitVec 7) (dest : Destination) (jump : BitVec 3) : Word :=
  0b111#3 ++ computation ++ dest.code ++ jump

/-- The word of a compute instruction. An unknown computation is reported before an unknown
jump. -/
def encodeCompute (dest : Destination) (computation jump : String)
    (location : Option Location) : Except Failure Word := do
  let c ← encodeComputation computation location
  let j ← encodeJump jump location
  return computeWord c dest j

end Instruction

end HackToolchain
