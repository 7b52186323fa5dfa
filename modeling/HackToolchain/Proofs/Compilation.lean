import HackToolchain.Proofs.Acceptance
import HackToolchain.Proofs.Execution
import HackToolchain.Proofs.StackMachine
import Mathlib
/-!
What translated and assembled commands do on the processor. Each template of the translator has an
effect on the registers; together they give the effect of a command on the memory, exactly, whatever
the memory holds. Only comparisons branch, and only forwards, so a unit without a loop runs through
the code of its commands and halts at its end.
-/

namespace HackToolchain

open Program Translator

/-! ## Templates -/

namespace Translator

/-- The part of a comparison before its branch. -/
def differenceCode : List Instruction :=
  popD ++ [load "R13", setM "D"] ++ pointToTop ++ [setD "M", load "R13", setD "D-M"]

/-- Puts the outcome of a comparison in the place of the top of the stack. -/
def answerCode (b : Bool) : List Instruction :=
  pointToTop ++ [setM (if b then "-1" else "0")]

/-- Two ways to go on from a test of D. -/
def branchCode (jump isTrue done : String) (no yes : List Instruction) : List Instruction :=
  [load isTrue, jumpIf "D" jump] ++ no ++ [load done, jumpIf "0" "JMP", .label isTrue] ++ yes ++ [.label done]

theorem comparisonCode_eq (jump isTrue done : String) : comparisonCode jump isTrue done =
    differenceCode ++ branchCode jump isTrue done (answerCode false) (answerCode true) :=
  rfl

end Translator

namespace Computation

/-- The computations by which templates reach cells and the stack. -/
theorem ofText?_generated :
    ofText? "M" = some (.y .m) ∧ ofText? "A" = some (.y .a) ∧ ofText? "D" = some .d ∧
    ofText? "M+1" = some (.succY .m) ∧ ofText? "M-1" = some (.predY .m) ∧ ofText? "D+M" = some (.dPlusY .m) ∧
    ofText? "D-M" = some (.dMinusY .m) := by
  decide

end Computation

namespace Instruction

variable {table : List (String × Int)} {text : String} (m : Memory) (a d : Word)

theorem perform_load (symbol : String) :
    perform table ⟨m, a, d⟩ (load symbol) = ⟨m, Word.ofInt (addressIn table symbol), d⟩ :=
  rfl

theorem perform_setA : perform table ⟨m, a, d⟩ (setA text) =
    match Computation.ofText? text with
    | some c => ⟨m, c.value d (c.secondOperand a (m.read a.address)), d⟩
    | none => ⟨m, a, d⟩ := by
  rw [setA, perform]
  cases Computation.ofText? text <;> rfl

theorem perform_setD : perform table ⟨m, a, d⟩ (setD text) =
    match Computation.ofText? text with
    | some c => ⟨m, a, c.value d (c.secondOperand a (m.read a.address))⟩
    | none => ⟨m, a, d⟩ := by
  rw [setD, perform]
  cases Computation.ofText? text <;> rfl

theorem perform_setM : perform table ⟨m, a, d⟩ (setM text) =
    match Computation.ofText? text with
    | some c => ⟨m.write a.address (c.value d (c.secondOperand a (m.read a.address))), a, d⟩
    | none => ⟨m, a, d⟩ := by
  rw [setM, perform]
  cases Computation.ofText? text <;> rfl

end Instruction

namespace Program.Knows

variable {table : List (String × Int)} (h : Knows table) (m : Memory) (a d : Word)

include h

theorem sp : Instruction.addressIn table "SP" = 0 :=
  h ("SP", 0) (by decide)

theorem r13 : Instruction.addressIn table "R13" = 13 :=
  h ("R13", 13) (by decide)

theorem r14 : Instruction.addressIn table "R14" = 14 :=
  h ("R14", 14) (by decide)

open Instruction

theorem perform_pushD : pushD.foldl (perform table) ⟨m, a, d⟩ =
    ⟨(m.write m.sp.address d).write 0 ((m.write m.sp.address d).sp + 1), 0, d⟩ := by
  simp only [pushD, List.foldl_cons, List.foldl_nil, perform_load, perform_setA, perform_setM,
    Computation.ofText?_generated, h.sp]
  rfl

theorem perform_popD : popD.foldl (perform table) ⟨m, a, d⟩ =
    ⟨m.write 0 (m.sp - 1), 0, m.read (m.sp - 1).address⟩ := by
  simp only [popD, List.foldl_cons, List.foldl_nil, perform_load, perform_setA, perform_setD, perform_setM,
    Computation.ofText?_generated, h.sp]
  rfl

/-- Spilling D into the first scratch cell. -/
theorem perform_spill : [load "R13", setM "D"].foldl (perform table) ⟨m, a, d⟩ = ⟨m.write 13 d, 13, d⟩ := by
  simp only [List.foldl_cons, List.foldl_nil, perform_load, perform_setM, Computation.ofText?_generated, h.r13]
  rfl

/-- Storing what has been spilled where A points, by way of the second scratch cell. -/
theorem perform_storeThrough :
    [setD "A", load "R14", setM "D", load "R13", setD "M", load "R14", setA "M", setM "D"].foldl (perform table)
      ⟨m, a, d⟩ = ⟨(m.write 14 a).write a.address (m.read 13), a, m.read 13⟩ := by
  simp only [List.foldl_cons, List.foldl_nil, perform_load, perform_setA, perform_setD, perform_setM,
    Computation.ofText?_generated, h.r13, h.r14]
  show Registers.mk ((m.write 14 a).write ((m.write 14 a).read 14).address ((m.write 14 a).read 13))
    ((m.write 14 a).read 14) ((m.write 14 a).read 13) = _
  rw [Memory.read_write, if_pos rfl, Memory.read_write, if_neg (by decide)]

theorem perform_pointToTop : pointToTop.foldl (perform table) ⟨m, a, d⟩ = ⟨m, m.sp - 1, d⟩ := by
  simp only [pointToTop, List.foldl_cons, List.foldl_nil, perform_load, perform_setA,
    Computation.ofText?_generated, h.sp]
  rfl

/-- An operation on the value below the top and the top, which is in D by then. -/
theorem ram_binary {text : String} {c : Computation} {f : Word → Word → Word} (hc : Computation.ofText? text = some c)
    (hf : ∀ x y a, c.value y (c.secondOperand a x) = f x y) :
    ((popD ++ [setA "M-1", setM text]).foldl (perform table) ⟨m, a, d⟩).ram =
      let popped := m.write 0 (m.sp - 1)
      popped.write (popped.sp - 1).address (f (popped.read (popped.sp - 1).address) (m.read (m.sp - 1).address)) := by
  simp only [List.foldl_append, List.foldl_cons, List.foldl_nil, h.perform_popD, perform_setA, perform_setM,
    Computation.ofText?_generated, hc, hf]
  rfl

theorem ram_unary {text : String} {c : Computation} {f : Word → Word} (hc : Computation.ofText? text = some c)
    (hf : ∀ x y a, c.value y (c.secondOperand a x) = f x) :
    ((pointToTop ++ [setM text]).foldl (perform table) ⟨m, a, d⟩).ram =
      m.write (m.sp - 1).address (f (m.read (m.sp - 1).address)) := by
  simp only [List.foldl_append, List.foldl_cons, List.foldl_nil, h.perform_pointToTop, perform_setM, hc, hf]

/-- The difference of the two values on top of the stack, of which the second is left there and the
first is spilled. -/
theorem perform_differenceCode : differenceCode.foldl (perform table) ⟨m, a, d⟩ =
    let y := m.read (m.sp - 1).address
    let spilled := (m.write 0 (m.sp - 1)).write 13 y
    ⟨spilled, 13, spilled.read (spilled.sp - 1).address - y⟩ := by
  rw [differenceCode, List.foldl_append, List.foldl_append, List.foldl_append, h.perform_popD, h.perform_spill,
    h.perform_pointToTop]
  simp only [List.foldl_cons, List.foldl_nil, perform_load, perform_setD, Computation.ofText?_generated, h.r13]
  show Registers.mk _ 13 (_ - (Memory.write _ 13 _).read 13) = _
  rw [Memory.read_write _ 13 13, if_pos rfl]
  rfl

theorem makes_answerCode (b : Bool) : Makes table (answerCode b) m (m.write (m.sp - 1).address (truth b)) where
  straight := by cases b <;> exact List.all_eq_true.1 rfl
  ram a d := by
    rw [answerCode, List.foldl_append, h.perform_pointToTop, List.foldl_cons, perform_setM]
    cases b <;> rfl

end Program.Knows

namespace Translator

open Instruction

variable {table : List (String × Int)} (m : Memory) (a d : Word) (offset : Nat)

theorem addressIn_repr (table : List (String × Int)) (n : Nat) : addressIn table n.repr = n := by
  rw [addressIn, if_pos (Text.isNumeral_repr n), Text.numeralValue_repr]

theorem ofInt_addressIn_repr (table : List (String × Int)) (n : Nat) :
    Word.ofInt (addressIn table n.repr) = .ofNat 16 n := by
  rw [addressIn_repr, Word.ofInt, BitVec.ofInt_natCast]

theorem perform_pointTo (register : String) : (pointTo register offset).foldl (perform table) ⟨m, a, d⟩ =
    ⟨m, .ofNat 16 offset + m.read (Word.ofInt (addressIn table register)).address, .ofNat 16 offset⟩ := by
  simp only [pointTo, List.foldl_cons, List.foldl_nil, perform_load, perform_setA, perform_setD,
    Computation.ofText?_generated, ofInt_addressIn_repr]
  rfl

end Translator

/-! ## The effect of a command -/

namespace StackMachine

variable (machine : StackMachine)

/-- What the code of a command does to the memory, cell by cell in the order in which it does it. -/
def effect (m : Memory) : Command → Memory
  | .push segment offset =>
    let pushed := m.write m.sp.address (machine.value m segment offset)
    pushed.write 0 (pushed.sp + 1)
  | .pop segment offset =>
    let v := m.read (m.sp - 1).address
    let popped := m.write 0 (m.sp - 1)
    match segment.base?, machine.cell? m segment offset with
    | some r, _ =>
      let w := .ofNat 16 offset + m.read r
      ((popped.write 13 v).write 14 w).write w.address v
    | none, some a => popped.write a v
    | none, none => m
  | .arithmetic operation =>
    let y := m.read (m.sp - 1).address
    let popped := m.write 0 (m.sp - 1)
    match operation.meaning with
    | .binary f => popped.write (popped.sp - 1).address (f (popped.read (popped.sp - 1).address) y)
    | .unary f => m.write (m.sp - 1).address (f y)
    | .comparison holds =>
      let spilled := popped.write 13 y
      spilled.write (spilled.sp - 1).address (truth (holds (spilled.read (spilled.sp - 1).address - y).signed))
  | .unsupported .. | .unrecognized _ => m

end StackMachine

/-! ## The cells of segments -/

theorem Word.address_add (offset : Nat) (w : Word) :
    Word.address (.ofNat 16 offset + w) = .ofNat 15 (w.toNat + offset) := by
  apply BitVec.eq_of_toNat_eq
  rw [Word.address, BitVec.toNat_setWidth, BitVec.toNat_add, BitVec.toNat_ofNat, BitVec.toNat_ofNat]
  omega

theorem StackMachine.cell?_based {machine : StackMachine} {segment : Segment} {r : Address}
    (hr : segment.base? = some r) (m : Memory) (offset : Nat) :
    machine.cell? m segment offset = some (Word.address (.ofNat 16 offset + m.read r)) := by
  unfold StackMachine.cell?
  rw [hr, Word.address_add]

namespace Translator

open Instruction

/-- The table of an assembled unit has the cells of the unit where the machine has them. -/
structure Placed (unit : String) (options : Options) (table : List (String × Int)) (machine : StackMachine) : Prop where
  sound : options.Sound
  knows : Knows table
  pointerBase : machine.pointerBase = options.pointerBase
  tempBase : machine.tempBase = options.tempBase
  static : ∀ offset ∈ machine.statics,
    addressIn table (staticName unit offset) = ((16 + machine.statics.idxOf offset : Nat) : Int)

variable {unit : String} {options : Options} {table : List (String × Int)} {machine : StackMachine}

/-- The registers with the bases of segments. -/
theorem Placed.based (h : Placed unit options table machine) {segment : Segment} {r : Address}
    (hr : segment.base? = some r) (offset : Nat) : ∃ register,
      access unit options segment offset = .based register ∧ (Word.ofInt (addressIn table register)).address = r := by
  have hregister : ∀ b ∈ Platform.predefinedSymbols,
      (Word.ofInt (addressIn table b.1)).address = (Word.ofInt b.2).address := fun b hb => by rw [h.knows b hb]
  cases segment with
  | argument => cases hr; exact ⟨_, rfl, hregister ("ARG", 2) (by decide)⟩
  | «local» => cases hr; exact ⟨_, rfl, hregister ("LCL", 1) (by decide)⟩
  | this => cases hr; exact ⟨_, rfl, hregister ("THIS", 3) (by decide)⟩
  | that => cases hr; exact ⟨_, rfl, hregister ("THAT", 4) (by decide)⟩
  | static | constant | pointer | temp => cases hr

theorem addressIn_decimal {n : Int} (h : 0 ≤ n) : addressIn table (Text.decimal n) = n := by
  rw [Text.decimal_of_nonneg h, addressIn_repr, Int.toNat_of_nonneg h]

theorem Placed.direct (h : Placed unit options table machine) {segment : Segment} {offset : Nat}
    (hb : segment.base? = none) (hc : segment ≠ .constant) (hs : segment = .static → offset ∈ machine.statics) :
    ∃ symbol, access unit options segment offset = .direct symbol ∧
      ∀ m, machine.cell? m segment offset = some (Word.ofInt (addressIn table symbol)).address := by
  have := h.sound.pointerBase
  have := h.sound.tempBase
  cases segment with
  | argument | «local» | this | that => cases hb
  | constant => exact (hc rfl).elim
  | pointer =>
    refine ⟨_, rfl, fun m => ?_⟩
    rw [addressIn_decimal (by omega), Word.address_ofInt, ← h.pointerBase]
    rfl
  | temp =>
    refine ⟨_, rfl, fun m => ?_⟩
    rw [addressIn_decimal (by omega), Word.address_ofInt, ← h.tempBase]
    rfl
  | static =>
    refine ⟨_, rfl, fun m => ?_⟩
    rw [h.static offset (hs rfl), Word.address_ofInt, BitVec.ofInt_natCast]
    rfl

/-! ## Commands without a branch -/

/-- The code of a push, a pop or an operation that compares nothing has the effect of the command. -/
theorem Placed.ram_push (h : Placed unit options table machine) {segment : Segment} {offset : Nat}
    (hs : segment = .static → offset ∈ machine.statics) (m : Memory) (a d : Word) :
    ((pushCode offset (access unit options segment offset)).foldl (perform table) ⟨m, a, d⟩).ram =
      machine.effect m (.push segment offset) := by
  rw [StackMachine.effect, StackMachine.value]
  by_cases hc : segment = .constant
  · subst hc
    simp only [access, pushCode, List.foldl_append, List.foldl_cons, List.foldl_nil, perform_load, perform_setD,
      Computation.ofText?_generated, h.knows.perform_pushD, ofInt_addressIn_repr]
    rfl
  cases hb : segment.base? with
  | some r =>
    obtain ⟨register, haccess, hregister⟩ := h.based hb offset
    simp only [haccess, pushCode, List.foldl_append, List.foldl_cons, List.foldl_nil, perform_pointTo, hregister,
      perform_setD, Computation.ofText?_generated, h.knows.perform_pushD, StackMachine.cell?_based hb]
    rfl
  | none =>
    obtain ⟨symbol, haccess, hcell⟩ := h.direct hb hc hs
    simp only [haccess, pushCode, List.foldl_append, List.foldl_cons, List.foldl_nil, perform_load, perform_setD,
      Computation.ofText?_generated, h.knows.perform_pushD, hcell]
    rfl

theorem Placed.ram_pop (h : Placed unit options table machine) {segment : Segment} {offset : Nat}
    (hs : segment = .static → offset ∈ machine.statics) (m : Memory) (a d : Word) :
    ((popCode offset (access unit options segment offset)).foldl (perform table) ⟨m, a, d⟩).ram =
      machine.effect m (.pop segment offset) := by
  rw [StackMachine.effect]
  by_cases hc : segment = .constant
  · subst hc
    rfl
  cases hb : segment.base? with
  | some r =>
    obtain ⟨register, haccess, hregister⟩ := h.based hb offset
    obtain ⟨hzero, hscratch⟩ := Segment.base_clear hb
    have hr13 : r ≠ 13 := by
      rintro rfl
      cases hscratch
    rw [haccess, popCode, List.foldl_append, List.foldl_append, List.foldl_append, h.knows.perform_popD,
      h.knows.perform_spill, perform_pointTo, hregister, h.knows.perform_storeThrough]
    rw [Memory.read_write _ 13 13, if_pos rfl, Memory.read_write, if_neg hr13, Memory.read_write, if_neg hzero]
  | none =>
    obtain ⟨symbol, haccess, hcell⟩ := h.direct hb hc hs
    simp only [haccess, popCode, List.foldl_append, List.foldl_cons, List.foldl_nil, h.knows.perform_popD, perform_load,
      perform_setM, Computation.ofText?_generated, hcell]
    rfl

theorem ram_operation (h : Knows table) {operation : Operation} (hc : operation.comparison? = none) (k : Nat)
    (m : Memory) (a d : Word) : ((operationCode options k operation).foldl (perform table) ⟨m, a, d⟩).ram =
      machine.effect m (.arithmetic operation) := by
  cases operation with
  | add => exact h.ram_binary m a d (c := .dPlusY .m) (by decide) fun x y _ => BitVec.add_comm y x
  | sub => exact h.ram_binary m a d (c := .yMinusD .m) (by decide) fun _ _ _ => rfl
  | and => exact h.ram_binary m a d (c := .dAndY .m) (by decide) fun x y _ => BitVec.and_comm y x
  | or => exact h.ram_binary m a d (c := .dOrY .m) (by decide) fun x y _ => BitVec.or_comm y x
  | neg => exact h.ram_unary m a d (c := .negY .m) (by decide) fun _ _ _ => rfl
  | not => exact h.ram_unary m a d (c := .notY .m) (by decide) fun _ _ _ => rfl
  | eq | lt | gt => cases hc

end Translator

/-- Only comparisons jump. -/
theorem Command.isStraight_of_mem_code {unit : String} {options : Options} {k : Nat} {c : Command}
    (hc : c.comparisons = 0) : ∀ i ∈ c.code unit options k, i.isStraight = true := by
  cases c with
  | push segment offset =>
    rw [code]
    cases access unit options segment offset <;> exact List.all_eq_true.1 rfl
  | pop segment offset =>
    rw [code]
    cases access unit options segment offset <;> exact List.all_eq_true.1 rfl
  | arithmetic operation =>
    cases operation with
    | eq | lt | gt => cases hc
    | _ => exact List.all_eq_true.1 rfl
  | unsupported | unrecognized => exact List.forall_mem_nil _

/-! ## Comparisons -/

namespace Program

variable {p before after : Program} {strict : Bool} {m m' : Memory}

/-- Code that ends with a jump over what follows it. -/
theorem leads_skip (h : p.Assemblable strict) {done : String} {code skipped : List Instruction}
    (hp : p = before ++ code ++ [load done, jumpIf "0" "JMP"] ++ skipped ++ .label done :: after)
    (hdone : Text.isNumeral done.toList = false) (hcode : Instruction.Makes p.symbols code m m') :
    p.Leads (size before) m (size (before ++ code ++ [load done, jumpIf "0" "JMP"] ++ skipped)) m' := by
  have hjump : p = before ++ code ++ load done :: jumpIf "0" "JMP" :: (skipped ++ .label done :: after) := by simp [hp]
  have hlt : size (before ++ code) + 1 < size (before ++ code ++ [load done, jumpIf "0" "JMP"] ++ skipped) := by
    have hsize : size [load done, jumpIf "0" "JMP"] = 2 := rfl
    rw [size_append _ skipped, size_append _ [load done, jumpIf "0" "JMP"], hsize]
    omega
  intro a d
  obtain ⟨n, a', d', hn⟩ := leads_straight h hjump hcode a d
  have hskip := climbs_jump_label h hjump hp hdone (by decide : Computation.ofText? "0" = some .zero)
    (by decide : Jump.ofText? "JMP" = some .always) hlt ⟨m', a', d'⟩
  exact ⟨n + 2, _, d', hn.trans hskip⟩

/-- **A branch does what the way does that it takes.** Both its jumps go forwards. -/
theorem climbs_branch (h : p.Assemblable strict) {jump isTrue done : String} {no yes : List Instruction} {j : Jump}
    (hp : p = before ++ branchCode jump isTrue done no yes ++ after) (hj : Jump.ofText? jump = some j)
    (htrue : Text.isNumeral isTrue.toList = false) (hdone : Text.isNumeral done.toList = false) (r : Registers)
    (hno : Instruction.Makes p.symbols no r.ram m) (hyes : Instruction.Makes p.symbols yes r.ram m') :
    ∃ n a d, Cpu.Climbs n (r.cpu p.words.toArray (size before))
      (Registers.cpu ⟨if j.taken r.d.signed then m' else m, a, d⟩ p.words.toArray
        (size (before ++ branchCode jump isTrue done no yes))) := by
  -- The test ends with the first jump; the first label stands where the way without it has ended.
  obtain ⟨test, htest⟩ : ∃ test, test = before ++ [load isTrue, jumpIf "D" jump] := ⟨_, rfl⟩
  obtain ⟨start, hstart⟩ : ∃ start, start = test ++ no ++ [load done, jumpIf "0" "JMP"] := ⟨_, rfl⟩
  have hcode : before ++ branchCode jump isTrue done no yes = start ++ ([.label isTrue] ++ yes) ++ [.label done] := by
    simp [branchCode, hstart, htest]
  have hend : size (before ++ branchCode jump isTrue done no yes) = size (start ++ ([.label isTrue] ++ yes)) := by
    rw [hcode, size_append]
    rfl
  have hfinish : p = start ++ ([.label isTrue] ++ yes) ++ .label done :: after := by simp [hp, hcode]
  have hlabel : p = start ++ .label isTrue :: (yes ++ .label done :: after) := by simp [hfinish]
  have hfirst : p = before ++ load isTrue :: jumpIf "D" jump ::
      (no ++ load done :: jumpIf "0" "JMP" :: .label isTrue :: (yes ++ .label done :: after)) := by
    simp [hlabel, hstart, htest]
  have htestSize : size test = size before + 2 := by rw [htest, size_append]; rfl
  have hstartSize : size start = size test + size no + 2 := by rw [hstart, size_append, size_append]; rfl
  have hjump := climbs_jump_label h hfirst hlabel htrue (by decide : Computation.ofText? "D" = some .d) hj (by omega) r
  rw [show (Instruction.perform p.symbols r (.address isTrue)).value .d = r.d from rfl, ← htestSize] at hjump
  rw [hend]
  by_cases ht : j.taken r.d.signed = true
  · rw [if_pos ht] at hjump ⊢
    obtain ⟨n, a, d, hn⟩ := leads_straight h hfinish ((Instruction.makes_label _ isTrue _).append hyes) _ _
    exact ⟨2 + n, a, d, hjump.trans hn⟩
  · rw [if_neg ht] at hjump ⊢
    rw [hstart] at hfinish ⊢
    obtain ⟨n, a, d, hn⟩ := leads_skip h hfinish hdone hno _ _
    exact ⟨2 + n, a, d, hjump.trans hn⟩

end Program

namespace Translator

open Instruction

variable {unit : String} {options : Options} {machine : StackMachine} {p before after : Program} {strict : Bool}

theorem isNumeral_comparisonLabel (options : Options) (k : Nat) (ending : String) :
    Text.isNumeral (comparisonLabel options k ending).toList = false :=
  Text.isNumeral_eq_false_of_mem (c := '.') (by simp [comparisonLabel]) rfl

/-- A comparison tests the difference as its jump does. -/
theorem comparison_cases {operation : Operation} {jump : String} (hj : operation.comparison? = some jump) :
    ∃ j, Jump.ofText? jump = some j ∧ operation.meaning = .comparison (fun n => j.taken n) ∧ ∀ options k,
      operationCode options k operation = comparisonCode jump (startLabel options k) (endLabel options k) := by
  cases operation with
  | eq => cases hj; exact ⟨.eq, by decide, rfl, fun _ _ => rfl⟩
  | lt => cases hj; exact ⟨.lt, by decide, rfl, fun _ _ => rfl⟩
  | gt => cases hj; exact ⟨.gt, by decide, rfl, fun _ _ => rfl⟩
  | add | sub | and | or | neg | not => cases hj

theorem leads_comparison (h : p.Assemblable strict) {operation : Operation} {jump : String} {k : Nat}
    (hcomparison : operation.comparison? = some jump)
    (hp : p = before ++ operationCode options k operation ++ after) (m : Memory) :
    p.Leads (size before) m (size (before ++ operationCode options k operation))
      (machine.effect m (.arithmetic operation)) := by
  obtain ⟨j, hj, hmeaning, hcode⟩ := comparison_cases hcomparison
  rw [hcode, comparisonCode_eq, ← List.append_assoc] at hp ⊢
  rw [StackMachine.effect, hmeaning]
  intro a d
  have hknows := knows_symbols h.toResolvable
  have hhead := climbs_straight h (hp.trans (List.append_assoc _ _ _)) (List.all_eq_true.1 rfl) ⟨m, a, d⟩
  rw [hknows.perform_differenceCode] at hhead
  obtain ⟨n, a', d', hn⟩ := climbs_branch h hp hj (isNumeral_comparisonLabel options k _)
    (isNumeral_comparisonLabel options k _) _ (hknows.makes_answerCode _ false) (hknows.makes_answerCode _ true)
  have hanswer : ∀ (spilled : Memory) (x : Address) (b : Bool),
      (if b then spilled.write x (truth true) else spilled.write x (truth false)) = spilled.write x (truth b) := by
    intro _ _ b
    cases b <;> rfl
  rw [hanswer] at hn
  exact ⟨size differenceCode + n, a', d', hhead.trans hn⟩

/-! ## Units -/

/-- The machine of a unit: its static cells lie in the order of their first use. -/
def unitMachine (options : Options) (cs : List Command) : StackMachine where
  pointerBase := options.pointerBase
  tempBase := options.tempBase
  statics := (statics cs).eraseDups

theorem placed_unitCode {cs : List Command} (ho : options.Sound) (h : Resolvable (unitCode unit options cs)) :
    Placed unit options (symbols (unitCode unit options cs)) (unitMachine options cs) where
  sound := ho
  knows := knows_symbols h
  pointerBase := rfl
  tempBase := rfl
  static offset hoffset := by
    refine addressIn_of_mem h (Text.isNumeral_eq_false_of_mem (c := '.') (by simp [staticName]) rfl) ?_
    rw [symbols, unbound_unitCode ho, Nat.cast_add]
    exact List.mem_append_right _ (mem_numbered_map hoffset 16)

/-- **The code of a command has its effect,** wherever it stands in an assembled unit. -/
theorem Placed.leads_command (h : p.Assemblable strict) (hplaced : Placed unit options p.symbols machine) {k : Nat}
    {c : Command} (hs : ∀ offset ∈ c.statics, offset ∈ machine.statics)
    (hp : p = before ++ c.code unit options k ++ after) (m : Memory) :
    p.Leads (size before) m (size (before ++ c.code unit options k)) (machine.effect m c) := by
  cases c with
  | push segment offset =>
    refine leads_straight h hp ⟨Command.isStraight_of_mem_code rfl, hplaced.ram_push ?_ m⟩
    rintro rfl
    exact hs offset List.mem_cons_self
  | pop segment offset =>
    refine leads_straight h hp ⟨Command.isStraight_of_mem_code rfl, hplaced.ram_pop ?_ m⟩
    rintro rfl
    exact hs offset List.mem_cons_self
  | arithmetic operation =>
    cases hcomparison : operation.comparison? with
    | some jump => exact leads_comparison h hcomparison hp m
    | none =>
      have hnone : (Command.arithmetic operation).comparisons = 0 := by
        rw [Command.comparisons, hcomparison]
        rfl
      exact leads_straight h hp ⟨Command.isStraight_of_mem_code hnone, ram_operation hplaced.knows hcomparison k m⟩
  | unsupported | unrecognized => exact leads_straight h hp ⟨Command.isStraight_of_mem_code rfl, fun _ _ => rfl⟩

/-- **The code of commands has their effects, one after another.** -/
theorem Placed.leads_commands (h : p.Assemblable strict) (hplaced : Placed unit options p.symbols machine) {k : Nat}
    {cs : List Command} (hs : ∀ offset ∈ statics cs, offset ∈ machine.statics)
    (hp : p = before ++ codeFrom unit options k cs ++ after) (m : Memory) :
    p.Leads (size before) m (size (before ++ codeFrom unit options k cs)) (cs.foldl machine.effect m) := by
  induction cs generalizing before k m with
  | nil =>
    rw [codeFrom, List.append_nil]
    exact .refl _ _ _
  | cons c cs ih =>
    rw [codeFrom, ← List.append_assoc] at hp ⊢
    rw [statics, List.flatMap_cons] at hs
    obtain ⟨hc, hcs⟩ := List.forall_mem_append.1 hs
    exact (hplaced.leads_command h hc (hp.trans (List.append_assoc _ _ _)) m).trans (ih hcs hp _)

/-- **An assembled unit without a loop halts at its end, with the effects of its commands.** There
are no more steps than words, whatever memory and registers hold at the beginning. -/
theorem run_unitCode {cs : List Command} (ho : options.Sound) (hloop : options.endLoop = false)
    (h : Assemblable strict (unitCode unit options cs)) (r : Registers) :
    ∃ n final, n ≤ (words (unitCode unit options cs)).length ∧ final.pc = (words (unitCode unit options cs)).length ∧
      final.halted = true ∧ final.ram = cs.foldl (unitMachine options cs).effect r.ram ∧
      ∀ cycles, (words (unitCode unit options cs)).length ≤ cycles →
        (r.cpu (words (unitCode unit options cs)).toArray 0).run (fun _ => false) cycles = (n, final) := by
  have hcode : unitCode unit options cs = [] ++ codeFrom unit options 0 cs ++ [] := by
    rw [unitCode, hloop]
    rfl
  have hleads := (placed_unitCode ho h.toResolvable).leads_commands h (fun _ => List.mem_eraseDups.2) hcode r.ram
  rw [← List.append_nil ([] ++ codeFrom unit options 0 cs), ← hcode, ← length_words h] at hleads
  obtain ⟨n, a, d, hn⟩ := hleads r.a r.d
  have hle := hn.le_pc
  rw [show (Registers.cpu ⟨r.ram, r.a, r.d⟩ _ (size [])).pc = 0 from rfl, Nat.zero_add] at hle
  have hhalted : (Registers.cpu ⟨cs.foldl (unitMachine options cs).effect r.ram, a, d⟩
      (words (unitCode unit options cs)).toArray (words (unitCode unit options cs)).length).halted = true := by
    simp [Cpu.halted, Registers.cpu]
  exact ⟨n, _, hle, rfl, hhalted, rfl, fun cycles hcycles => hn.run_eq hhalted (hle.trans hcycles)⟩

end Translator

end HackToolchain
