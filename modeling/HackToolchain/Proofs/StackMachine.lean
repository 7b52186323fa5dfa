import HackToolchain.Command
import HackToolchain.Machine.Memory
import Mathlib
/-!
The machine that commands are written for. Its memory is that of the processor: cell 0 holds the
address one past the top of the stack, cells 1 to 4 the bases of the based segments, and the
directly addressed segments lie at fixed places, the static cells from 16 on. Code for the machine
keeps values in cells 13 and 14, so it can only be compared with the machine on the others.
-/

namespace HackToolchain

/-- What an operation does with the values on top of the stack. -/
inductive Operation.Meaning where
  | binary (f : Word → Word → Word)
  | unary (f : Word → Word)
  /-- Holds or not of the difference of two values, taken as a signed word. -/
  | comparison (holds : Int → Bool)

def Operation.meaning : Operation → Meaning
  | add => .binary (· + ·)
  | sub => .binary (· - ·)
  | and => .binary (· &&& ·)
  | or => .binary (· ||| ·)
  | neg => .unary (- ·)
  | not => .unary (~~~ ·)
  | eq => .comparison (· = 0)
  | lt => .comparison (· < 0)
  | gt => .comparison (0 < ·)

/-- The cell with the base of a segment, for the segments that have one. -/
def Segment.base? : Segment → Option Address
  | «local» => some 1
  | argument => some 2
  | this => some 3
  | that => some 4
  | static | constant | pointer | temp => none

/-- The word that a comparison leaves. -/
def truth (b : Bool) : Word :=
  if b then -1 else 0

/-- The stack pointer. -/
def Memory.sp (m : Memory) : Word :=
  m.read 0

/-- Where a unit keeps its directly addressed cells. -/
structure StackMachine where
  pointerBase : Int
  tempBase : Int
  /-- The offsets of the static cells, in the order of the cells. -/
  statics : List Nat
deriving DecidableEq

namespace StackMachine

variable (machine : StackMachine)

/-- The cell of a segment; a constant has none. -/
def cell? (m : Memory) (segment : Segment) (offset : Nat) : Option Address :=
  match segment.base? with
  | some r => some (.ofNat 15 ((m.read r).toNat + offset))
  | none =>
    match segment with
    | .pointer => some (.ofInt 15 (machine.pointerBase + offset))
    | .temp => some (.ofInt 15 (machine.tempBase + offset))
    | .static => some (.ofNat 15 (16 + machine.statics.idxOf offset))
    | _ => none

/-- The value that is pushed. -/
def value (m : Memory) (segment : Segment) (offset : Nat) : Word :=
  match machine.cell? m segment offset with
  | some a => m.read a
  | none => .ofNat 16 offset

/-- What a command does to the memory. -/
def step (m : Memory) : Command → Memory
  | .push segment offset => (m.write m.sp.address (machine.value m segment offset)).write 0 (m.sp + 1)
  | .pop segment offset =>
    match machine.cell? m segment offset with
    | some a => (m.write 0 (m.sp - 1)).write a (m.read (m.sp - 1).address)
    | none => m
  | .arithmetic operation =>
    let x := m.read (m.sp - 2).address
    let y := m.read (m.sp - 1).address
    match operation.meaning with
    | .binary f => (m.write (m.sp - 2).address (f x y)).write 0 (m.sp - 1)
    | .unary f => m.write (m.sp - 1).address (f y)
    | .comparison holds => (m.write (m.sp - 2).address (truth (holds (x - y).signed))).write 0 (m.sp - 1)
  | .unsupported .. | .unrecognized _ => m

def run (m : Memory) (cs : List Command) : Memory :=
  cs.foldl machine.step m

/-! ## Scratch cells -/

/-- The cells that code uses to keep a value and an address. -/
def isScratch (a : Address) : Bool :=
  a = 13 || a = 14

/-- A command that does not get into the way of its own code: it takes nothing from a scratch cell,
and the cell it writes on the stack is not the stack pointer. -/
def Clear (m : Memory) : Command → Prop
  | .push segment offset => m.sp.address ≠ 0 ∧ ∀ a ∈ machine.cell? m segment offset, isScratch a = false
  | .pop _ _ => isScratch (m.sp - 1).address = false
  | .arithmetic operation =>
    match operation.meaning with
    | .unary _ => True
    | .binary _ | .comparison _ => (m.sp - 2).address ≠ 0 ∧ isScratch (m.sp - 1).address = false
  | .unsupported .. | .unrecognized _ => True

/-- All commands of a run are clear. -/
def RunsClear (m : Memory) : List Command → Prop
  | [] => True
  | c :: cs => machine.Clear m c ∧ RunsClear (machine.step m c) cs

end StackMachine

/-- The cells with the bases of segments are neither the stack pointer nor scratch. -/
theorem Segment.base_clear {segment : Segment} {r : Address} (h : segment.base? = some r) :
    r ≠ 0 ∧ StackMachine.isScratch r = false := by
  cases segment with
  | argument | «local» | this | that => cases h; decide
  | static | constant | pointer | temp => cases h

/-- Two memories that differ in scratch cells at most. -/
def Memory.Agrees (m m' : Memory) : Prop :=
  ∀ a, StackMachine.isScratch a = false → m.read a = m'.read a

end HackToolchain
