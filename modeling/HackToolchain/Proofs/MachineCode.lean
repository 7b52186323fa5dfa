import HackToolchain.Instruction.Encoding
import HackToolchain.Machine.Cpu
import HackToolchain.Machine.Rom
import HackToolchain.Proofs.Text
import Mathlib
/-!
Encoded instructions mean on the processor what they say. A word survives being written as
sixteen binary digits and loaded again. The fields of a compute word are the computation, the
destination and the jump it was made from; under the control bits of a computation the arithmetic
unit yields the value that its text denotes, and under the bits of a jump the processor jumps
exactly on the numbers that its mnemonic names. So one step on an encoded instruction does what
the instruction reads as, whatever the registers and the memory hold.
-/

namespace HackToolchain

/-! ## Words as text -/

namespace Word

theorem ofBinary_concat (cs : List Char) (c : Char) :
    ofBinary (cs ++ [c]) = 2 * ofBinary cs + if c == '1' then 1 else 0 := by
  simp [ofBinary]

/-- The first `k` bits of a vector, read as a number, are the vector without its other bits. -/
theorem ofBinary_take {n : Nat} (v : BitVec n) {k : Nat} (hk : k ≤ n) :
    ofBinary ((List.range k).map fun i => if v.getMsbD i then '1' else '0') = v.toNat / 2 ^ (n - k) := by
  induction k with
  | zero => simp [ofBinary, Nat.div_eq_of_lt v.isLt]
  | succ k ih =>
    have hsub : n - k = n - (k + 1) + 1 := by omega
    have hbit : v.getMsbD k = v.toNat.testBit (n - (k + 1)) := by
      rw [BitVec.getMsbD_eq_getLsbD, decide_eq_true (by omega : k < n), Bool.true_and, BitVec.getLsbD,
        Nat.sub_sub, Nat.add_comm 1]
    rw [List.range_succ, List.map_append, List.map_singleton, ofBinary_concat, ih (by omega), hbit, hsub,
      Nat.pow_succ, ← Nat.div_div_eq_div_mul, Nat.testBit_eq_decide_div_mod_eq]
    by_cases h : v.toNat / 2 ^ (n - (k + 1)) % 2 = 1
    · simp only [h, decide_true, if_true, beq_self_eq_true]
      omega
    · simp only [h, decide_false, Bool.false_eq_true, if_false, beq_iff_eq, Char.reduceEq]
      omega

theorem mem_bits {w : Word} {c : Char} (h : c ∈ (bits w).toList) : c = '0' ∨ c = '1' := by
  simp only [bits, String.toList_ofList, List.mem_map] at h
  obtain ⟨i, -, rfl⟩ := h
  split
  · exact .inr rfl
  · exact .inl rfl

theorem ofText?_bits (w : Word) : ofText? (bits w).toList = some w := by
  have htext : isText (bits w).toList = true := by
    simp only [isText, Bool.and_eq_true, beq_iff_eq, List.all_eq_true, Bool.or_eq_true]
    exact ⟨by simp [bits], fun c hc => mem_bits hc⟩
  rw [ofText?, if_pos htext, bits, String.toList_ofList, ofBinary_take w (Nat.le_refl 16)]
  simp

end Word

theorem stripComment_bits (w : Word) : stripComment (bits w) = bits w := by
  refine stripComment_eq_self fun c hc => ?_
  rcases Word.mem_bits hc with rfl | rfl <;> decide

theorem bits_beq_empty (w : Word) : (bits w == "") = false := by
  rw [beq_eq_false_iff_ne]
  intro h
  have := Word.ofText?_bits w
  rw [h] at this
  cases this

theorem romWord?_bits (w : Word) : romWord? (.raw (bits w)) = .ok (some w) := by
  simp only [romWord?, stripComment_bits, bits_beq_empty, romWord?.parse, Word.ofText?_bits]
  rfl

/-- A program written as text loads as the same program. -/
theorem romWords_bits (words : List Word) : romWords (words.map fun w => .raw (bits w)) = .ok words := by
  induction words with
  | nil => rfl
  | cons w words ih =>
    rw [romWords] at ih ⊢
    rw [List.map_cons, List.filterMapM_cons, romWord?_bits, ih]
    rfl

/-! ## What computations and jumps denote -/

namespace Instruction

/-- The word a character of a computation stands for. -/
def term? (a d m : Word) : Char → Option Word
  | '0' => some 0
  | '1' => some 1
  | 'A' => some a
  | 'D' => some d
  | 'M' => some m
  | _ => none

/-- The word that the text of a computation denotes: one term, one term with a sign before it, or
two with an operator between them. -/
def denoted? (a d m : Word) : List Char → Option Word
  | [x] => term? a d m x
  | ['-', x] => (term? a d m x).map (-·)
  | ['!', x] => (term? a d m x).map (~~~·)
  | [x, '+', y] => return (← term? a d m x) + (← term? a d m y)
  | [x, '-', y] => return (← term? a d m x) - (← term? a d m y)
  | [x, '&', y] => return (← term? a d m x) &&& (← term? a d m y)
  | [x, '|', y] => return (← term? a d m x) ||| (← term? a d m y)
  | _ => none

end Instruction

namespace Computation

/-- The second operand of the arithmetic unit, out of A and the cell it points to. -/
def secondOperand (c : Computation) (a m : Word) : Word :=
  match c.operand with
  | .a => a
  | .m => m

theorem denoted?_text (c : Computation) (a d m : Word) :
    Instruction.denoted? a d m c.text.toList = some (c.value d (c.secondOperand a m)) := by
  cases c with
  | zero | one | minusOne | d | notD | negD | succD | predD => rfl
  | y o | notY o | negY o | succY o | predY o | dPlusY o | dMinusY o | yMinusD o | dAndY o | dOrY o =>
    cases o <;> rfl

theorem text_of_ofText? {text : String} {c : Computation} (h : ofText? text = some c) : c.text = text := by
  simpa using List.find?_some h

end Computation

theorem Jump.ofText?_text (j : Jump) : ofText? j.text = some j := by
  cases j <;> decide

namespace Alu

/-- **The control bits of a computation make the unit yield its value.** -/
theorem output_control (c : Computation) (d y : Word) : output c.control d y = c.value d y := by
  cases c <;> simp [output, prepare, Computation.control, Computation.value]
  -- What is left are the identities of two's complement that the circuit computes by.
  case d | notD => exact BitVec.and_allOnes
  case y | notY => exact BitVec.allOnes_and
  case dOrY => rw [BitVec.not_and, BitVec.not_not, BitVec.not_not]
  all_goals bv_omega

theorem jumps_code (j : Jump) (out : Word) : jumps j.code out = j.taken out.signed := by
  cases j <;> simp [jumps, Jump.code, Jump.taken] <;> grind

end Alu

/-! ## The fields of a word -/

namespace Instruction

theorem getLsbD_computeWord (code : BitVec 7) (dest : Destination) (jump : BitVec 3) (i : Nat) :
    (computeWord code dest jump).getLsbD i =
      if i < 3 then jump.getLsbD i
      else if i < 6 then dest.code.getLsbD (i - 3)
      else if i < 13 then code.getLsbD (i - 6)
      else (0b111#3).getLsbD (i - 13) := by
  show BitVec.getLsbD (0b111#3 ++ code ++ dest.code ++ jump) i = _
  simp only [BitVec.getLsbD_append]
  grind

theorem getLsbD_destination (dest : Destination) :
    dest.code.getLsbD 0 = dest.m ∧ dest.code.getLsbD 1 = dest.d ∧ dest.code.getLsbD 2 = dest.a := by
  obtain ⟨a, d, m⟩ := dest
  cases a <;> cases d <;> cases m <;> decide

theorem control_computeWord (c : Computation) (dest : Destination) (jump : BitVec 3) :
    (computeWord c.code dest jump).extractLsb' 6 6 = c.control := by
  ext i hi
  rw [BitVec.getElem_extractLsb', getLsbD_computeWord, if_neg (by omega), if_neg (by omega),
    if_pos (by omega), Nat.add_sub_cancel_left, Computation.code, BitVec.getLsbD_append, if_pos hi,
    BitVec.getLsbD_eq_getElem]

theorem jump_computeWord (code : BitVec 7) (dest : Destination) (jump : BitVec 3) :
    (computeWord code dest jump).extractLsb' 0 3 = jump := by
  ext i hi
  rw [BitVec.getElem_extractLsb', getLsbD_computeWord, if_pos (by omega), Nat.zero_add,
    BitVec.getLsbD_eq_getElem]

theorem operand_computeWord (c : Computation) (dest : Destination) (jump : BitVec 3) :
    (computeWord c.code dest jump).getLsbD 12 = decide (c.operand = .m) := by
  have hbit : c.code.getLsbD 6 = c.operand.bit.getLsbD 0 := by
    rw [Computation.code, BitVec.getLsbD_append]
    rfl
  rw [getLsbD_computeWord]
  show c.code.getLsbD 6 = _
  rw [hbit]
  cases c.operand <;> rfl

end Instruction

/-! ## Executing encoded instructions -/

namespace Cpu

/-- The processor after it has executed a compute instruction. -/
def computed (dest : Destination) (c : Computation) (j : Jump) (cpu : Cpu) : Cpu :=
  let v := c.value cpu.d (c.secondOperand cpu.a (cpu.ram.read cpu.a.address))
  { rom := cpu.rom
    ram := if dest.m then cpu.ram.write cpu.a.address v else cpu.ram
    a := if dest.a then v else cpu.a
    d := if dest.d then v else cpu.d
    pc := if j.taken v.signed then cpu.a.address.toNat else cpu.pc + 1 }

theorem execute_computeWord (dest : Destination) (c : Computation) (j : Jump) (cpu : Cpu) :
    cpu.execute (Instruction.computeWord c.code dest j.code) = cpu.computed dest c j := by
  obtain ⟨rom, ram, a, d, pc⟩ := cpu
  obtain ⟨hm, hd, ha⟩ := Instruction.getLsbD_destination dest
  have hmsb : (Instruction.computeWord c.code dest j.code).msb = true := by
    rw [BitVec.msb_eq_getLsbD_last, Instruction.getLsbD_computeWord]
    rfl
  have hy : (if decide (c.operand = .m) = true then ram.read a.address else a) =
      c.secondOperand a (ram.read a.address) := by
    rw [Computation.secondOperand]
    cases c.operand <;> rfl
  simp only [execute, hmsb, Bool.not_true, Bool.false_eq_true, if_false, Instruction.control_computeWord,
    Instruction.jump_computeWord, Instruction.operand_computeWord, Alu.output_control, Alu.jumps_code, hy]
  simp only [Instruction.getLsbD_computeWord, Nat.reduceLT, if_true, if_false, Nat.reduceSub, hm, hd, ha,
    computed]

theorem execute_address {w : Word} (h : w.msb = false) (cpu : Cpu) :
    cpu.execute w = { cpu with a := w, pc := cpu.pc + 1 } := by
  obtain ⟨rom, ram, a, d, pc⟩ := cpu
  simp only [execute, h, Bool.not_false, if_true]

theorem step_of_current? {cpu : Cpu} {w : Word} (h : cpu.current? = some w) : cpu.step = .ok (cpu.execute w) := by
  rw [step, h]

end Cpu

namespace Instruction

theorem encodeCompute_ok {dest : Destination} {computation jump : String} {c : Computation} {j : Jump}
    (hc : Computation.ofText? computation = some c) (hj : Jump.ofText? jump = some j)
    (location : Option Location) :
    encodeCompute dest computation jump location = .ok (computeWord c.code dest j.code) := by
  simp only [encodeCompute, encodeComputation, encodeJump, hc, hj]
  rfl

theorem encodeAddress_ok {address : Int} (h : 0 ≤ address) (h' : address < 32768) (location : Option Location) :
    encodeAddress address location = .ok (Word.ofInt address) := by
  rw [encodeAddress, if_pos (by simp [h, h', Platform.addressSpace])]

end Instruction

theorem Word.toNat_ofInt {n : Int} (h : 0 ≤ n) (h' : n < 32768) : ((Word.ofInt n).toNat : Int) = n := by
  rw [Word.ofInt, BitVec.toNat_ofInt]
  omega

theorem Word.msb_ofInt {n : Int} (h : 0 ≤ n) (h' : n < 32768) : (Word.ofInt n).msb = false := by
  rw [BitVec.msb_eq_decide, decide_eq_false_iff_not]
  have := Word.toNat_ofInt h h'
  omega

/-- **One step on an encoded instruction does what the instruction says.** A compute instruction
whose computation and jump the machine knows has a word, which survives being written and loaded.
Where that word is executed, the value that the text of the computation denotes goes into exactly
the registers of the destination, into memory at the old A, and the jump is taken to the old A if
the value, as a signed number, stands to zero as the mnemonic says. An address below 32768 has a
word too, and executing that loads A and nothing else. -/
theorem step_encoded_instruction (location : Option Location) :
    (∀ (dest : Destination) (computation jump : String),
      (Computation.ofText? computation).isSome → (Jump.ofText? jump).isSome →
      ∃ w j, Instruction.encodeCompute dest computation jump location = .ok w ∧
        Jump.ofText? jump = some j ∧ romWords [.raw (bits w)] = .ok [w] ∧
        ∀ cpu : Cpu, cpu.current? = some w → ∃ v : Word,
          Instruction.denoted? cpu.a cpu.d (cpu.ram.read cpu.a.address) computation.toList = some v ∧
          cpu.step = .ok
            { rom := cpu.rom
              ram := if dest.m then cpu.ram.write cpu.a.address v else cpu.ram
              a := if dest.a then v else cpu.a
              d := if dest.d then v else cpu.d
              pc := if j.taken v.signed then cpu.a.address.toNat else cpu.pc + 1 }) ∧
    (∀ address : Int, 0 ≤ address → address < 32768 →
      ∃ w, Instruction.encodeAddress address location = .ok w ∧ (w.toNat : Int) = address ∧
        romWords [.raw (bits w)] = .ok [w] ∧
        ∀ cpu : Cpu, cpu.current? = some w → cpu.step = .ok { cpu with a := w, pc := cpu.pc + 1 }) := by
  constructor
  · intro dest computation jump hcomputation hjump
    obtain ⟨c, hc⟩ := Option.isSome_iff_exists.1 hcomputation
    obtain ⟨j, hj⟩ := Option.isSome_iff_exists.1 hjump
    refine ⟨_, j, Instruction.encodeCompute_ok hc hj location, hj, romWords_bits [_], fun cpu hcpu => ?_⟩
    refine ⟨_, ?_, (Cpu.step_of_current? hcpu).trans (congrArg _ (Cpu.execute_computeWord dest c j cpu))⟩
    rw [← Computation.text_of_ofText? hc, Computation.denoted?_text]
  · intro address h h'
    refine ⟨_, Instruction.encodeAddress_ok h h' location, Word.toNat_ofInt h h', romWords_bits [_],
      fun cpu hcpu => ?_⟩
    rw [Cpu.step_of_current? hcpu, Cpu.execute_address (Word.msb_ofInt h h')]

/-- A counter at address 5 that stood at zero is decremented, kept in A too, and found negative. -/
theorem step_encoded_decrement :
    ∃ w cpu', Instruction.encodeCompute { a := true, m := true } "M-1" "JLT" none = .ok w ∧
      Cpu.step { rom := #[w], a := 5 } = .ok cpu' ∧
      cpu'.ram.read 5 = -1 ∧ cpu'.a = -1 ∧ cpu'.d = 0 ∧ cpu'.pc = 5 := by
  obtain ⟨w, j, hw, hj, -, hstep⟩ := (step_encoded_instruction none).1 { a := true, m := true } "M-1" "JLT"
    (by decide) (by decide)
  obtain rfl : j = .lt := by simpa using hj.symm.trans (Jump.ofText?_text .lt)
  obtain ⟨v, hv, h⟩ := hstep { rom := #[w], a := 5 } rfl
  obtain rfl : v = -1 := by
    have hread : Memory.zero.read (Word.address 5) = 0 := Memory.read_zero _
    simpa [Instruction.denoted?, Instruction.term?, hread] using hv.symm
  refine ⟨w, _, hw, h, ?_, rfl, rfl, rfl⟩
  simp [Memory.read_write, Word.address]

end HackToolchain
