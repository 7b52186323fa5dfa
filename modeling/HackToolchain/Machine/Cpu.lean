import HackToolchain.Failure
import HackToolchain.Machine.Alu
import HackToolchain.Machine.Memory
import HackToolchain.Platform
/-!
The processor. It executes the word its program counter points to until the counter has left the
program. A word with a clear top bit is loaded into A; any other word computes from D and from A
or the cell A points to, stores the result and may jump. Storing into memory and jumping both go
by the value A had before.
-/

namespace HackToolchain

structure Cpu where
  rom : Array Word
  ram : Memory := .zero
  a : Word := 0
  d : Word := 0
  pc : Nat := 0

namespace Cpu

/-- A processor with a program, which must fit into the instruction memory. -/
def load (program : List Word) : Except Failure Cpu :=
  if Platform.addressSpace < program.length then .error (.breach .programTooLarge)
  else .ok { rom := program.toArray }

/-- The word to be executed next. -/
def current? (cpu : Cpu) : Option Word :=
  cpu.rom[cpu.pc]?

/-- The program counter has left the program. -/
def halted (cpu : Cpu) : Bool :=
  cpu.rom.size ≤ cpu.pc

/-- Executes one word. -/
def execute (w : Word) : Cpu → Cpu
  | ⟨rom, ram, a, d, pc⟩ =>
    if !w.msb then ⟨rom, ram, w, d, pc + 1⟩
    else
      let y := if w.getLsbD 12 then ram.read a.address else a
      let out := Alu.output (w.extractLsb' 6 6) d y
      ⟨rom,
        if w.getLsbD 3 then ram.write a.address out else ram,
        if w.getLsbD 5 then out else a,
        if w.getLsbD 4 then out else d,
        if Alu.jumps (w.extractLsb' 0 3) out then a.address.toNat else pc + 1⟩

/-- One step of a processor that has not halted. -/
def step (cpu : Cpu) : Except Failure Cpu :=
  match cpu.current? with
  | some w => .ok (cpu.execute w)
  | none => .error (.breach .steppedWhenHalted)

/-- Runs until the processor halts, `stop` holds before a step, or `fuel` steps are done; gives
the number of steps on top of `count`. -/
def runFrom (stop : Cpu → Bool) (count : Nat) : Nat → Cpu → Nat × Cpu
  | 0, cpu => (count, cpu)
  | fuel + 1, cpu =>
    match cpu.current? with
    | none => (count, cpu)
    | some w => if stop cpu then (count, cpu) else runFrom stop (count + 1) fuel (cpu.execute w)

/-- Runs for at most `cycles` steps, and no longer than until `stop` holds. Gives the number of
steps and the state reached. -/
def run (stop : Cpu → Bool) (cycles : Nat) (cpu : Cpu) : Nat × Cpu :=
  runFrom stop 0 cycles cpu

/-- The processor with its stack pointer at the bottom of the stack. -/
def withEmptyStack (cpu : Cpu) : Cpu :=
  { cpu with ram := cpu.ram.write (.ofNat 15 Platform.stackPointer) (.ofNat 16 Platform.stackBase) }

/-- The values on the stack, bottom first. -/
def stack (cpu : Cpu) : List Int :=
  let top := (cpu.ram.read (.ofNat 15 Platform.stackPointer)).toNat
  (cpu.ram.range Platform.stackBase top).map Word.signed

/-- The values of the virtual registers. -/
def virtualRegisters (cpu : Cpu) : List Int :=
  (cpu.ram.range 0 Platform.virtualRegisters).map Word.signed

theorem current?_eq_none_iff (cpu : Cpu) : cpu.current? = none ↔ cpu.halted = true := by
  simp [current?, halted]

end Cpu

end HackToolchain
