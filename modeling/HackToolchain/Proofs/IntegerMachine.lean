import HackToolchain.Proofs.Execution
import Mathlib
/-!
The processor with nothing but integers. Program, cells and registers are integers of any size, the
arithmetic unit complements and adds without bounds and cuts its result down once at the end, and
reading or writing a list at a place it does not have is a failure. Started on words, such a processor
goes through exactly the states of the processor on words, so its cells and registers never leave
their range and nothing it is asked to do fails.
-/

namespace HackToolchain

/-! ## Arithmetic on integers -/

namespace Alu

theorem ofInt_complement (n : Int) : Word.ofInt (complement n) = ~~~Word.ofInt n := by
  simp only [Word.ofInt, complement, Int.sub_eq_add_neg, BitVec.ofInt_add, BitVec.ofInt_neg, BitVec.not_eq_neg_add,
    BitVec.ofInt_ofNat, BitVec.sub_eq_add_neg]

theorem ofNat_bitwise_and_not (m n : Nat) :
    BitVec.ofNat 16 (Nat.bitwise (fun a b => a && !b) m n) = BitVec.ofNat 16 m &&& ~~~BitVec.ofNat 16 n := by
  apply BitVec.eq_of_getLsbD_eq
  intro i hi
  simp only [BitVec.getLsbD_and, BitVec.getLsbD_not, BitVec.getLsbD_ofNat, hi, decide_true, Bool.true_and]
  rw [Nat.testBit_bitwise rfl]

theorem ofInt_conjunction (x y : Int) : Word.ofInt (conjunction x y) = Word.ofInt x &&& Word.ofInt y := by
  have hnat : ∀ n : Nat, Word.ofInt (.ofNat n) = BitVec.ofNat 16 n := BitVec.ofInt_natCast 16
  have hneg : ∀ n : Nat, Word.ofInt (.negSucc n) = ~~~BitVec.ofNat 16 n := fun n =>
    BitVec.ofInt_negSucc_eq_not_ofNat
  cases x with
  | ofNat m =>
    cases y with
    | ofNat n => simp only [conjunction, hnat, BitVec.ofNat_and]
    | negSucc n => simp only [conjunction, hnat, hneg, ofNat_bitwise_and_not]
  | negSucc m =>
    cases y with
    | ofNat n => rw [conjunction, hnat, hnat, hneg, ofNat_bitwise_and_not, BitVec.and_comm]
    | negSucc n => simp only [conjunction, hneg, BitVec.ofNat_or, BitVec.not_or]

theorem ofInt_prepareInteger (zero complemented : Bool) (n : Int) :
    Word.ofInt (prepareInteger zero complemented n) = prepare zero complemented (Word.ofInt n) := by
  cases zero <;> cases complemented <;> simp only [prepareInteger, prepare, if_true, if_false, Bool.false_eq_true,
    ofInt_complement]
  · rfl
  · rfl

/-- The unit on integers is the unit on their words. -/
theorem onIntegers_eq (control : BitVec 6) (x y : Int) :
    onIntegers control x y = output control (Word.ofInt x) (Word.ofInt y) := by
  simp only [onIntegers, output, ← ofInt_prepareInteger]
  generalize prepareInteger (control.getLsbD 5) (control.getLsbD 4) x = x
  generalize prepareInteger (control.getLsbD 3) (control.getLsbD 2) y = y
  have hadd : Word.ofInt (x + y) = Word.ofInt x + Word.ofInt y := BitVec.ofInt_add x y
  cases control.getLsbD 1 <;> cases control.getLsbD 0 <;>
    simp only [if_true, if_false, Bool.false_eq_true, ofInt_complement, ofInt_conjunction, hadd]

def hasBit (n mask : Int) : Bool :=
  conjunction n mask != 0

/-- The number that the last sixteen bits of an integer stand for in two's complement. -/
def signedInteger (n : Int) : Int :=
  let n := conjunction n 0xFFFF
  if hasBit n 0x8000 then n - 0x10000 else n

def jumpsOnIntegers (jump out : Int) : Bool :=
  (hasBit jump 0b100 && signedInteger out < 0) || (hasBit jump 0b010 && signedInteger out == 0) ||
    (hasBit jump 0b001 && 0 < signedInteger out)

end Alu

namespace Word

/-- The number a word stands for without a sign. -/
def unsigned (w : Word) : Int :=
  w.toNat

theorem unsigned_range (w : Word) : 0 ≤ w.unsigned ∧ w.unsigned ≤ 65535 := by
  have := w.isLt
  simp only [unsigned]
  omega

@[simp] theorem ofInt_unsigned (w : Word) : ofInt w.unsigned = w := by
  simp [ofInt, unsigned]

theorem conjunction_unsigned (w : Word) (n : Nat) : Alu.conjunction w.unsigned n = (w.toNat &&& n : Nat) :=
  rfl

theorem conjunction_address (w : Word) : Alu.conjunction w.unsigned 0x7FFF = w.address.toNat := by
  have hmod : w.toNat &&& 0x7FFF = w.toNat % 0x8000 := Nat.and_two_pow_sub_one_eq_mod w.toNat 15
  rw [show (0x7FFF : Int) = (0x7FFF : Nat) from rfl, conjunction_unsigned, hmod, address, BitVec.toNat_setWidth]

theorem hasBit_natCast (n i : Nat) : Alu.hasBit n ((2 ^ i : Nat) : Int) = n.testBit i := by
  have hand : Alu.conjunction n ((2 ^ i : Nat) : Int) = (n &&& 2 ^ i : Nat) := rfl
  rw [Alu.hasBit, hand, Nat.and_two_pow]
  cases n.testBit i <;> simp

theorem signedInteger_unsigned (w : Word) : Alu.signedInteger w.unsigned = w.signed := by
  have hmask : Alu.conjunction w.unsigned 0xFFFF = w.unsigned := by
    have hmod : w.toNat &&& 0xFFFF = w.toNat % 0x10000 := Nat.and_two_pow_sub_one_eq_mod w.toNat 16
    rw [show (0xFFFF : Int) = (0xFFFF : Nat) from rfl, conjunction_unsigned, hmod, Nat.mod_eq_of_lt w.isLt, unsigned]
  have hsign : Alu.hasBit w.unsigned 0x8000 = w.msb := by
    rw [BitVec.msb_eq_getLsbD_last]
    exact hasBit_natCast w.toNat 15
  simp only [Alu.signedInteger, hmask, hsign, signed, BitVec.toInt_eq_msb_cond]
  rfl

end Word

/-! ## The processor on integers -/

/-- The processor with nothing but integers. -/
structure IntegerCpu where
  rom : List Int
  ram : List Int
  a : Int := 0
  d : Int := 0
  pc : Int := 0

namespace IntegerCpu

def item (xs : List Int) (index : Int) : Except Failure Int :=
  match if index < 0 then none else xs[index.toNat]? with
  | some x => .ok x
  | none => .error .outOfRange

def setItem (xs : List Int) (index value : Int) : Except Failure (List Int) :=
  if 0 ≤ index && index < xs.length then .ok (xs.set index.toNat value) else .error .outOfRange

def halted (cpu : IntegerCpu) : Bool :=
  cpu.rom.length ≤ cpu.pc

/-- The cell that the A register points to. -/
def cell (cpu : IntegerCpu) : Int :=
  Alu.conjunction cpu.a 0x7FFF

def operand (w : Int) (cpu : IntegerCpu) : Except Failure Int :=
  if Alu.hasBit w 0x1000 then item cpu.ram cpu.cell else .ok cpu.a

/-- The memory after a result has been stored as the destination bits say. -/
def stored (dest out : Int) (cpu : IntegerCpu) : Except Failure (List Int) :=
  if Alu.hasBit dest 0b001 then setItem cpu.ram cpu.cell out else .ok cpu.ram

def execute (w : Int) (cpu : IntegerCpu) : Except Failure IntegerCpu :=
  if !Alu.hasBit w 0x8000 then .ok { cpu with a := w, pc := cpu.pc + 1 }
  else do
    let control := BitVec.ofInt 6 (Alu.conjunction (w >>> 6) 0b111111)
    let out := (Alu.onIntegers control cpu.d (← cpu.operand w)).unsigned
    let dest := Alu.conjunction (w >>> 3) 0b111
    return {
      rom := cpu.rom
      ram := ← cpu.stored dest out
      a := if Alu.hasBit dest 0b100 then out else cpu.a
      d := if Alu.hasBit dest 0b010 then out else cpu.d
      pc := if Alu.jumpsOnIntegers (Alu.conjunction w 0b111) out then cpu.cell else cpu.pc + 1 }

def step (cpu : IntegerCpu) : Except Failure IntegerCpu := do
  if cpu.halted then throw (.breach .steppedWhenHalted)
  cpu.execute (← item cpu.rom cpu.pc)

/-- Runs until the processor halts, `stop` holds before a step, or `fuel` steps are done; gives the
number of steps on top of `count`. -/
def runFrom (stop : IntegerCpu → Bool) (count : Nat) : Nat → IntegerCpu → Except Failure (Nat × IntegerCpu)
  | 0, cpu => .ok (count, cpu)
  | fuel + 1, cpu =>
    if cpu.halted || stop cpu then .ok (count, cpu)
    else do runFrom stop (count + 1) fuel (← cpu.step)

/-- What a processor can be asked to do: one step, unless it has halted, or a run of so many steps at
most. -/
inductive Call where
  | step
  | run (stop : IntegerCpu → Bool) (cycles : Int)

def call (cpu : IntegerCpu) : Call → Except Failure IntegerCpu
  | .step => if cpu.halted then .ok cpu else cpu.step
  | .run stop cycles => (cpu.runFrom stop 0 cycles.toNat).map Prod.snd

/-- Every cell and register is as wide as a word, and the program counter at most one past the last
place of the instruction memory. -/
structure InRange (cpu : IntegerCpu) : Prop where
  cells : cpu.ram.length = 32768
  ram : ∀ v ∈ cpu.ram, 0 ≤ v ∧ v ≤ 65535
  a : 0 ≤ cpu.a ∧ cpu.a ≤ 65535
  d : 0 ≤ cpu.d ∧ cpu.d ≤ 65535
  pc : 0 ≤ cpu.pc ∧ cpu.pc ≤ 32768

end IntegerCpu

def Cpu.integers (cpu : Cpu) : IntegerCpu where
  rom := cpu.rom.toList.map Word.unsigned
  ram := cpu.ram.cells.toList.map Word.unsigned
  a := cpu.a.unsigned
  d := cpu.d.unsigned
  pc := cpu.pc

/-! ## Both processors step alike -/

namespace IntegerCpu

theorem item_map {words : List Word} {i : Nat} {w : Word} (h : words[i]? = some w) :
    item (words.map Word.unsigned) i = .ok w.unsigned := by
  have hpos : ¬ (i : Int) < 0 := by omega
  simp [item, hpos, h]

theorem item_ram (m : Memory) (a : Address) :
    item (m.cells.toList.map Word.unsigned) a.toNat = .ok (m.read a).unsigned := by
  have hlt := a.isLt
  refine item_map ?_
  rw [List.getElem?_eq_getElem (by simpa using hlt)]
  simp [Memory.read]

theorem setItem_ram (m : Memory) (a : Address) (w : Word) :
    setItem (m.cells.toList.map Word.unsigned) a.toNat w.unsigned =
      .ok ((m.write a w).cells.toList.map Word.unsigned) := by
  have hlt : a.toNat < 32768 := a.isLt
  have hrange : (0 : Int) ≤ a.toNat ∧ (a.toNat : Int) < (m.cells.toList.map Word.unsigned).length := by
    simp only [List.length_map, Vector.length_toList]
    omega
  rw [setItem, if_pos (by simpa using hrange)]
  simp only [Memory.write, Int.toNat_natCast, Vector.toList_set, List.map_set]

end IntegerCpu

namespace Word

theorem hasBit_unsigned (w : Word) (i : Nat) : Alu.hasBit w.unsigned ((2 ^ i : Nat) : Int) = w.getLsbD i :=
  hasBit_natCast w.toNat i

/-- The control bits of a word, cut out of its number. -/
theorem control_unsigned (w : Word) :
    BitVec.ofInt 6 (Alu.conjunction (w.unsigned >>> 6) 0b111111) = w.extractLsb' 6 6 := by
  have hcut : Alu.conjunction (w.unsigned >>> 6) 0b111111 = ((w.toNat >>> 6 &&& 0b111111 : Nat) : Int) := rfl
  have hmod : w.toNat >>> 6 &&& 0b111111 = (w.toNat >>> 6) % 64 := Nat.and_two_pow_sub_one_eq_mod _ 6
  rw [hcut, hmod, BitVec.ofInt_natCast]
  apply BitVec.eq_of_toNat_eq
  simp

theorem dest_unsigned (w : Word) {i : Nat} (hi : i < 3) :
    Alu.hasBit (Alu.conjunction (w.unsigned >>> 3) 0b111) ((2 ^ i : Nat) : Int) = w.getLsbD (3 + i) := by
  have hcut : Alu.conjunction (w.unsigned >>> 3) 0b111 = ((w.toNat >>> 3 &&& 0b111 : Nat) : Int) := rfl
  have hmod : w.toNat >>> 3 &&& 0b111 = (w.toNat >>> 3) % 2 ^ 3 := Nat.and_two_pow_sub_one_eq_mod _ 3
  rw [hcut, hmod, hasBit_natCast, Nat.testBit_mod_two_pow, Nat.testBit_shiftRight, decide_eq_true hi, Bool.true_and]
  rfl

theorem jump_unsigned (w : Word) (i : Nat) :
    Alu.hasBit (Alu.conjunction w.unsigned 0b111) ((2 ^ i : Nat) : Int) = (w.extractLsb' 0 3).getLsbD i := by
  have hcut : Alu.conjunction w.unsigned 0b111 = ((w.toNat &&& 0b111 : Nat) : Int) := rfl
  have hmod : w.toNat &&& 0b111 = w.toNat % 2 ^ 3 := Nat.and_two_pow_sub_one_eq_mod _ 3
  rw [hcut, hmod, hasBit_natCast, Nat.testBit_mod_two_pow, BitVec.getLsbD_extractLsb', Nat.zero_add]
  rfl

theorem jumpsOnIntegers_unsigned (w out : Word) :
    Alu.jumpsOnIntegers (Alu.conjunction w.unsigned 0b111) out.unsigned = Alu.jumps (w.extractLsb' 0 3) out := by
  have below : Alu.hasBit (Alu.conjunction w.unsigned 0b111) 0b100 = _ := w.jump_unsigned 2
  have equal : Alu.hasBit (Alu.conjunction w.unsigned 0b111) 0b010 = _ := w.jump_unsigned 1
  have above : Alu.hasBit (Alu.conjunction w.unsigned 0b111) 0b001 = _ := w.jump_unsigned 0
  simp only [Alu.jumpsOnIntegers, Alu.jumps, signedInteger_unsigned, below, equal, above]

end Word

namespace Cpu

theorem halted_integers (cpu : Cpu) : cpu.integers.halted = cpu.halted := by
  simp [IntegerCpu.halted, halted, integers]

theorem cell_integers (cpu : Cpu) : cpu.integers.cell = cpu.a.address.toNat :=
  cpu.a.conjunction_address

theorem operand_integers (cpu : Cpu) (w : Word) :
    cpu.integers.operand w.unsigned = .ok (if w.getLsbD 12 then cpu.ram.read cpu.a.address else cpu.a).unsigned := by
  have hbit : Alu.hasBit w.unsigned 0x1000 = w.getLsbD 12 := w.hasBit_unsigned 12
  rw [IntegerCpu.operand, hbit, cell_integers]
  split
  · exact IntegerCpu.item_ram cpu.ram cpu.a.address
  · rfl

theorem stored_integers (cpu : Cpu) (w out : Word) :
    cpu.integers.stored (Alu.conjunction (w.unsigned >>> 3) 0b111) out.unsigned =
      .ok ((if w.getLsbD 3 then cpu.ram.write cpu.a.address out else cpu.ram).cells.toList.map Word.unsigned) := by
  have hbit : Alu.hasBit (Alu.conjunction (w.unsigned >>> 3) 0b111) 0b001 = w.getLsbD 3 :=
    w.dest_unsigned (i := 0) (by decide)
  rw [IntegerCpu.stored, hbit, cell_integers]
  split
  · exact IntegerCpu.setItem_ram cpu.ram cpu.a.address out
  · rfl

theorem execute_integers (cpu : Cpu) (w : Word) : cpu.integers.execute w.unsigned = .ok (cpu.execute w).integers := by
  have hsign : Alu.hasBit w.unsigned 0x8000 = w.msb :=
    (w.hasBit_unsigned 15).trans (BitVec.msb_eq_getLsbD_last w).symm
  have hd : Alu.hasBit (Alu.conjunction (w.unsigned >>> 3) 0b111) 0b010 = w.getLsbD 4 :=
    w.dest_unsigned (i := 1) (by decide)
  have ha : Alu.hasBit (Alu.conjunction (w.unsigned >>> 3) 0b111) 0b100 = w.getLsbD 5 :=
    w.dest_unsigned (i := 2) (by decide)
  rw [IntegerCpu.execute, hsign, execute]
  cases w.msb with
  | false => rfl
  | true =>
    have hdreg : cpu.integers.d = cpu.d.unsigned := rfl
    simp only [operand_integers, Word.control_unsigned, Alu.onIntegers_eq, stored_integers, hd, ha, cell_integers,
      Word.jumpsOnIntegers_unsigned, bind, Except.bind, pure, Except.pure, hdreg, Word.ofInt_unsigned]
    generalize Alu.output _ cpu.d _ = out
    simp only [integers, Bool.not_true, Bool.false_eq_true, if_false, apply_ite Word.unsigned, Nat.cast_ite,
      Nat.cast_add, Nat.cast_one]

/-- **On integers a step does what it does on words.** -/
theorem step_integers (cpu : Cpu) : cpu.integers.step = cpu.step.map integers := by
  rw [step]
  cases hw : cpu.current? with
  | none =>
    have hhalted := (current?_eq_none_iff cpu).1 hw
    rw [← halted_integers] at hhalted
    simp only [IntegerCpu.step, hhalted, if_true]
    rfl
  | some w =>
    have hhalted : cpu.integers.halted = false := by
      rw [halted_integers, Bool.eq_false_iff, Ne, ← current?_eq_none_iff, hw]
      exact Option.some_ne_none w
    have hitem : IntegerCpu.item cpu.integers.rom cpu.integers.pc = .ok w.unsigned :=
      IntegerCpu.item_map (by simpa [current?] using hw)
    simp only [IntegerCpu.step, hhalted, hitem]
    exact execute_integers cpu w

theorem runFrom_integers (stop : IntegerCpu → Bool) (count fuel : Nat) (cpu : Cpu) :
    cpu.integers.runFrom stop count fuel =
      .ok (Prod.map id integers (cpu.runFrom (fun c => stop c.integers) count fuel)) := by
  induction fuel generalizing count cpu with
  | zero => rfl
  | succ fuel ih =>
    rw [IntegerCpu.runFrom, runFrom, halted_integers]
    cases hw : cpu.current? with
    | none =>
      rw [(current?_eq_none_iff cpu).1 hw]
      rfl
    | some w =>
      have hhalted : cpu.halted = false := by
        rw [Bool.eq_false_iff, Ne, ← current?_eq_none_iff, hw]
        exact Option.some_ne_none w
      rw [hhalted, Bool.false_or]
      dsimp only
      split
      · rfl
      · rw [step_integers, step_of_current? hw]
        exact ih (count + 1) (cpu.execute w)

def call (cpu : Cpu) : IntegerCpu.Call → Except Failure Cpu
  | .step => if cpu.halted then .ok cpu else cpu.step
  | .run stop cycles => .ok (cpu.run (fun c => stop c.integers) cycles.toNat).2

theorem call_integers (cpu : Cpu) (c : IntegerCpu.Call) : cpu.integers.call c = (cpu.call c).map integers := by
  cases c with
  | step =>
    rw [IntegerCpu.call, call, halted_integers]
    split
    · rfl
    · exact step_integers cpu
  | run stop cycles =>
    rw [IntegerCpu.call, call, runFrom_integers]
    rfl

/-! ## What every call keeps -/

/-- The program fits into the instruction memory, and the counter is at most one past its end. -/
structure Fits (cpu : Cpu) : Prop where
  rom : cpu.rom.size ≤ 32768
  pc : cpu.pc ≤ 32768

theorem rom_execute (w : Word) (cpu : Cpu) : (cpu.execute w).rom = cpu.rom := by
  rw [execute]
  split <;> rfl

/-- A word is only executed where there is one, so the counter goes at most one past the program. -/
theorem Fits.execute {cpu : Cpu} {w : Word} (h : cpu.Fits) (hw : cpu.current? = some w) : (cpu.execute w).Fits where
  rom := by rw [rom_execute]; exact h.rom
  pc := by
    have hlt : cpu.pc < cpu.rom.size := (Array.getElem?_eq_some_iff.1 hw).1
    have hrom := h.rom
    have haddress : cpu.a.address.toNat < 32768 := cpu.a.address.isLt
    rw [Cpu.execute]
    split
    · dsimp only
      omega
    · dsimp only
      generalize Alu.jumps (w.extractLsb' 0 3) _ = taken
      split <;> omega

theorem Fits.runFrom {cpu : Cpu} (h : cpu.Fits) (stop : Cpu → Bool) (count fuel : Nat) :
    (cpu.runFrom stop count fuel).2.Fits ∧ (cpu.runFrom stop count fuel).2.rom = cpu.rom := by
  induction fuel generalizing count cpu with
  | zero => exact ⟨h, rfl⟩
  | succ fuel ih =>
    rw [Cpu.runFrom]
    split
    · exact ⟨h, rfl⟩
    next w hw =>
    split
    · exact ⟨h, rfl⟩
    · obtain ⟨hfits, hrom⟩ := ih (h.execute hw) (count + 1)
      exact ⟨hfits, hrom.trans (rom_execute w cpu)⟩

/-- No call fails, and each keeps the program. -/
theorem Fits.call {cpu : Cpu} (h : cpu.Fits) (c : IntegerCpu.Call) :
    ∃ cpu', cpu.call c = .ok cpu' ∧ cpu'.Fits ∧ cpu'.rom = cpu.rom := by
  cases c with
  | step =>
    rw [Cpu.call]
    split
    · exact ⟨cpu, rfl, h, rfl⟩
    next hhalted =>
    rw [← current?_eq_none_iff] at hhalted
    obtain ⟨w, hw⟩ := Option.ne_none_iff_exists'.1 hhalted
    exact ⟨_, step_of_current? hw, h.execute hw, rom_execute w cpu⟩
  | run stop cycles => exact ⟨_, rfl, h.runFrom _ 0 cycles.toNat⟩

/-- No sequence of calls fails, on words or on integers, and both ways lead to the same state. -/
theorem Fits.calls {cpu : Cpu} (h : cpu.Fits) (calls : List IntegerCpu.Call) :
    ∃ final, calls.foldlM Cpu.call cpu = .ok final ∧
      calls.foldlM IntegerCpu.call cpu.integers = .ok final.integers ∧ final.Fits ∧ final.rom = cpu.rom := by
  induction calls generalizing cpu with
  | nil => exact ⟨cpu, rfl, rfl, h, rfl⟩
  | cons c calls ih =>
    obtain ⟨next, hnext, hfits, hrom⟩ := h.call c
    obtain ⟨final, hwords, hintegers, hfinal, hkept⟩ := ih hfits
    refine ⟨final, ?_, ?_, hfinal, hkept.trans hrom⟩
    · rw [List.foldlM_cons, hnext]
      exact hwords
    · rw [List.foldlM_cons, call_integers, hnext]
      exact hintegers

theorem Fits.inRange {cpu : Cpu} (h : cpu.Fits) : cpu.integers.InRange where
  cells := by simp [integers]
  ram v hv := by
    obtain ⟨w, -, rfl⟩ := List.mem_map.1 hv
    exact w.unsigned_range
  a := cpu.a.unsigned_range
  d := cpu.d.unsigned_range
  pc := by
    have := h.pc
    simp only [integers]
    omega

/-- Whatever the memory holds at first, calls keep the processor on integers in range, with its
program, and on the states of the processor on words. -/
def RunsInRange (cpu : Cpu) : Prop :=
  ∀ (ram : Memory) (calls : List IntegerCpu.Call), ∃ final : Cpu,
    calls.foldlM Cpu.call { cpu with ram } = .ok final ∧
      calls.foldlM IntegerCpu.call ({ cpu with ram } : Cpu).integers = .ok final.integers ∧
      final.integers.InRange ∧ final.integers.rom = cpu.integers.rom

/-- A program of at most as many words as the instruction memory has loads and runs. -/
theorem runsInRange_of_length_le {words : List Word} (h : words.length ≤ 32768) :
    ∃ cpu, load words = .ok cpu ∧ cpu.integers.rom = words.map Word.unsigned ∧ cpu.RunsInRange := by
  refine ⟨{ rom := words.toArray }, load_of_length_le h, rfl, fun ram calls => ?_⟩
  have hfits : ({ rom := words.toArray, ram } : Cpu).Fits := ⟨h, by simp⟩
  obtain ⟨final, hwords, hintegers, hfinal, hrom⟩ := hfits.calls calls
  exact ⟨final, hwords, hintegers, hfinal.inRange, by simp only [integers, hrom]⟩

end Cpu

/-! ## Assembled words -/

namespace Instruction

/-- The top three bits of the word of a compute instruction are set. -/
theorem unsigned_computeWord (computation : BitVec 7) (dest : Destination) (jump : BitVec 3) :
    (computeWord computation dest jump).unsigned / 8192 = 7 := by
  have htop : (computeWord computation dest jump).extractLsb' 13 3 = 0b111#3 := by
    apply BitVec.eq_of_getLsbD_eq
    intro i hi
    rw [BitVec.getLsbD_extractLsb', getLsbD_computeWord]
    interval_cases i <;> rfl
  have hnat := congrArg BitVec.toNat htop
  rw [BitVec.extractLsb'_toNat, Nat.shiftRight_eq_div_pow] at hnat
  have hlt := (computeWord computation dest jump).isLt
  simp only [Word.unsigned]
  norm_num at hnat hlt
  omega

end Instruction

/-- Every word of an assembled program is an address or has its three top bits set. -/
theorem Program.shape_of_mem_words {strict : Bool} {p : Program} (h : p.Assemblable strict) {w : Word}
    (hw : w ∈ p.words) : w.unsigned < 32768 ∨ w.unsigned / 8192 = 7 := by
  obtain ⟨i, hi, hword⟩ := List.mem_filterMap.1 hw
  cases i with
  | address symbol =>
    obtain ⟨hle, hlt⟩ := addressIn_range h hi
    cases hword
    exact .inl ((Word.toNat_ofInt hle hlt).trans_lt hlt)
  | label name => cases hword
  | unrecognized text => cases hword
  | compute dest computation jump =>
    simp only [Instruction.wordIn?, Option.bind_eq_bind, Option.bind_eq_some_iff, Option.pure_def,
      Option.some.injEq] at hword
    obtain ⟨c, -, j, -, rfl⟩ := hword
    exact .inr (Instruction.unsigned_computeWord c.code dest j.code)

/-- **Whatever the assembler makes loads and runs.** The words of a source that is assembled, written
as text, load as the numbers they are written for, one for one: addresses, and words with their three
top bits set. The processor takes them. From then on, and likewise for every program of at most
32768 words that loads, no sequence of steps and runs fails, whatever the memory holds at first: the
cells stay 32768, cells and registers stay in their range, so does the counter, and the program stays
as it is. -/
theorem assembled_program_runs (strict : Bool) (lines : List Line) :
    (∀ words s, assembleLines strict lines = .ok words s →
      romWords (words.map fun w => .raw (bits w)) = .ok words ∧
      (∀ w ∈ words, Word.ofBinary (bits w).toList = w.toNat ∧ (0 ≤ w.unsigned ∧ w.unsigned ≤ 65535) ∧
        (w.unsigned < 32768 ∨ w.unsigned / 8192 = 7)) ∧
      ∃ cpu, Cpu.load words = .ok cpu ∧ cpu.integers.rom = words.map Word.unsigned ∧ cpu.RunsInRange) ∧
    ∀ words, romWords lines = .ok words → words.length ≤ 32768 →
      ∃ cpu, Cpu.load words = .ok cpu ∧ cpu.integers.rom = words.map Word.unsigned ∧ cpu.RunsInRange := by
  refine ⟨fun words s h => ?_, fun words _ hlength => Cpu.runsInRange_of_length_le hlength⟩
  have hlength := length_le_of_assembleLines h
  obtain ⟨⟨-, hassemblable⟩, -, rfl, -⟩ := Assembler.assembled h
  refine ⟨romWords_bits _, fun w hw => ?_, Cpu.runsInRange_of_length_le hlength⟩
  refine ⟨?_, w.unsigned_range, Program.shape_of_mem_words hassemblable hw⟩
  rw [bits, String.toList_ofList, Word.ofBinary_take w (Nat.le_refl 16)]
  simp

/-- A program that points A below zero, to the last cell, and stores there; asked for one step more
than it has. -/
theorem assembled_program_runs_past_end :
    let lines : List Line := [.raw "@0", .raw "A=A-1", .raw "M=!D // the last cell"]
    ∃ words s cpu final, assembleLines true lines = .ok words s ∧ Cpu.load words = .ok cpu ∧
      [.run (fun _ => false) 2, .step, .step].foldlM IntegerCpu.call cpu.integers = .ok final ∧
      final.InRange ∧ final.rom = words.map Word.unsigned := by
  intro lines
  have hassembled : ∃ words s, assembleLines true lines = .ok words s :=
    Assembler.exists_assembled (by decide) (by decide)
  obtain ⟨words, s, h⟩ := hassembled
  obtain ⟨-, -, cpu, hload, hrom, hruns⟩ := (assembled_program_runs true lines).1 words s h
  obtain ⟨final, -, hcalls, hrange, hkept⟩ := hruns cpu.ram [.run (fun _ => false) 2, .step, .step]
  exact ⟨words, s, cpu, final.integers, h, hload, hcalls, hrange, hkept.trans hrom⟩

end HackToolchain
