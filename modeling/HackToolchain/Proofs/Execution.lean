import HackToolchain.Proofs.Assembly
import HackToolchain.Proofs.MachineCode
import Mathlib
/-!
Running an assembled program. In the table of a program every name has one address, so the word of
each instruction stands at the number of instructions before it, and a label is the address of what
follows it. A run of instructions that do not jump therefore does to the registers and the memory
what the instructions say, one after another; jumps are followed one by one. Runs are composed as
climbs, in which every step raises the program counter, so that their length is bounded.
-/

namespace HackToolchain

/-! ## The table of a program -/

namespace Program

variable {p before after : Program} {strict : Bool} {name : String} {address : Int}

theorem nodup_symbols (h : p.Resolvable) : (p.symbols.map Prod.fst).Nodup := by
  rw [symbols, List.map_append, List.map_append, map_fst_numbered]
  refine List.nodup_append.2 ⟨List.nodup_append.2 ⟨by decide, h.labels_distinct, ?_⟩, nodup_fresh _ _, ?_⟩
  · rintro x hx _ hy rfl
    exact h.labels_new x hy hx
  · rintro x hx _ hy rfl
    exact (mem_fresh.1 hy).2 hx

theorem addressIn_of_mem (h : p.Resolvable) (hname : Text.isNumeral name.toList = false)
    (hm : (name, address) ∈ p.symbols) : Instruction.addressIn p.symbols name = address := by
  rw [Instruction.addressIn, hname, binding?_of_mem (nodup_symbols h) hm]
  rfl

/-- The table binds the predefined symbols to their addresses. -/
def Knows (table : List (String × Int)) : Prop :=
  ∀ b ∈ Platform.predefinedSymbols, Instruction.addressIn table b.1 = b.2

theorem knows_symbols (h : p.Resolvable) : Knows p.symbols := by
  have hnames : ∀ b ∈ Platform.predefinedSymbols, Text.isNumeral b.1.toList = false := by decide
  intro b hb
  refine addressIn_of_mem h (hnames b hb) ?_
  rw [symbols, List.append_assoc]
  exact List.mem_append_left _ hb

/-- A label stands for the number of instructions before it. -/
theorem addressIn_label (h : p.Resolvable) (hp : p = before ++ .label name :: after)
    (hname : Text.isNumeral name.toList = false) : Instruction.addressIn p.symbols name = size before := by
  refine addressIn_of_mem h hname ?_
  have hlabel : (name, (size before : Int)) ∈ p.labels := by
    rw [labels, hp, labelsFrom_append, labelsFrom, Nat.zero_add]
    exact List.mem_append_right _ List.mem_cons_self
  rw [symbols]
  exact List.mem_append_left _ (List.mem_append_right _ hlabel)

/-- Every address of an assembled program fits into an instruction. -/
theorem addressIn_range (h : p.Assemblable strict) (hi : .address name ∈ p) :
    0 ≤ Instruction.addressIn p.symbols name ∧ Instruction.addressIn p.symbols name < 32768 := by
  rw [Instruction.addressIn]
  split
  next hnum =>
    have := (h.encodable _ hi hnum).2
    omega
  · cases hb : binding? name p.symbols with
    | none => exact ⟨Int.le_refl 0, by decide⟩
    | some a =>
      have hmem := mem_of_binding? hb
      rw [symbols] at hmem
      show 0 ≤ a ∧ a < 32768
      rcases List.mem_append.1 hmem with hmem | hmem
      · rcases List.mem_append.1 hmem with hmem | hmem
        · exact Assembler.predefinedSymbols_range _ hmem
        · have hle : (0 : Int) ≤ a := le_of_mem_labelsFrom hmem
          have hlt : a ≤ 32767 := h.labels_le _ hmem
          omega
      · have hrange : (16 : Int) ≤ a ∧ a < 16 + p.unbound.length := mem_numbered hmem
        have := h.unbound_le
        omega

/-! ## The words of a program -/

theorem isSome_wordIn? {i : Instruction} (h : i.Encodable strict) (table : List (String × Int)) :
    (Instruction.wordIn? table i).isSome = i.isExecutable := by
  cases i with
  | address | label | unrecognized => rfl
  | compute dest computation jump =>
    obtain ⟨c, hc⟩ := Option.isSome_iff_exists.1 h.1
    obtain ⟨j, hj⟩ := Option.isSome_iff_exists.1 h.2
    simp [Instruction.wordIn?, Instruction.isExecutable, hc, hj]

theorem length_filterMap_wordIn? {q : Program} (h : ∀ i ∈ q, i.Encodable strict) (table : List (String × Int)) :
    (q.filterMap (Instruction.wordIn? table)).length = size q := by
  rw [List.length_filterMap_eq_countP, size]
  exact List.countP_congr fun i hi => by rw [isSome_wordIn? (h i hi) table]

/-- The word of an instruction stands at the number of instructions before it. -/
theorem getElem?_words (h : p.Assemblable strict) {i : Instruction} {w : Word} (hp : p = before ++ i :: after)
    (hw : Instruction.wordIn? p.symbols i = some w) : p.words.toArray[size before]? = some w := by
  have hencodable : ∀ i ∈ before, i.Encodable strict := fun i hi => h.encodable i (hp ▸ List.mem_append_left _ hi)
  have hbefore := length_filterMap_wordIn? hencodable p.symbols
  have hwords : p.words = before.filterMap (Instruction.wordIn? p.symbols) ++
      w :: after.filterMap (Instruction.wordIn? p.symbols) := by
    rw [words]
    conv_lhs => rw [hp]
    rw [List.filterMap_append, ← hp, List.filterMap_cons_some hw]
  rw [List.getElem?_toArray, hwords, ← hbefore, List.getElem?_append_right (Nat.le_refl _), Nat.sub_self]
  rfl

theorem length_words (h : p.Assemblable strict) : p.words.length = p.size :=
  length_filterMap_wordIn? h.encodable _

theorem length_words_le (h : p.Assemblable strict) : p.words.length ≤ 32768 :=
  (length_words h).trans_le h.size_le

end Program

/-- What was assembled fits into the instruction memory. -/
theorem length_le_of_assembleLines {strict : Bool} {lines : List Line} {words : List Word} {s : Assembler}
    (h : assembleLines strict lines = .ok words s) : words.length ≤ 32768 := by
  obtain ⟨⟨-, hassemblable⟩, -, rfl, -⟩ := Assembler.assembled h
  exact Program.length_words_le hassemblable

theorem Cpu.load_of_length_le {words : List Word} (h : words.length ≤ 32768) :
    load words = .ok { rom := words.toArray } := by
  have hlength : (words.length : Int) ≤ Platform.addressSpace := Int.ofNat_le.2 h
  rw [load, if_neg (Int.not_lt.2 hlength)]

/-! ## Runs that climb -/

namespace Cpu

/-- From one processor to another in `n` steps, each of which raises the program counter. -/
inductive Climbs : Nat → Cpu → Cpu → Prop
  | refl (cpu : Cpu) : Climbs 0 cpu cpu
  | step {n : Nat} {cpu final : Cpu} {w : Word} : cpu.current? = some w → cpu.pc < (cpu.execute w).pc →
    Climbs n (cpu.execute w) final → Climbs (n + 1) cpu final

namespace Climbs

variable {m n : Nat} {cpu mid final : Cpu}

theorem trans (h : Climbs m cpu mid) (h' : Climbs n mid final) : Climbs (m + n) cpu final := by
  induction h with
  | refl => rwa [Nat.zero_add]
  | step hw hlt _ ih =>
    rw [Nat.add_right_comm]
    exact .step hw hlt (ih h')

theorem single {w : Word} (hw : cpu.current? = some w) (hlt : cpu.pc < (cpu.execute w).pc) :
    Climbs 1 cpu (cpu.execute w) :=
  .step hw hlt (.refl _)

/-- There are no more steps than the program counter has risen. -/
theorem le_pc (h : Climbs n cpu final) : cpu.pc + n ≤ final.pc := by
  induction h with
  | refl => exact Nat.le_refl _
  | step _ hlt _ ih => omega

/-- With enough fuel, a run does the steps of the climb and goes on from its end. -/
theorem runFrom_eq (h : Climbs n cpu final) (count fuel : Nat) :
    runFrom (fun _ => false) count (n + fuel) cpu = runFrom (fun _ => false) (count + n) fuel final := by
  induction h generalizing count with
  | refl => rw [Nat.zero_add, Nat.add_zero]
  | step hw _ _ ih =>
    rw [Nat.add_right_comm, runFrom, hw]
    show runFrom _ (count + 1) _ _ = _
    rw [ih, Nat.add_assoc, Nat.add_comm 1]

end Climbs

theorem runFrom_halted {cpu : Cpu} (h : cpu.halted = true) (stop : Cpu → Bool) (count fuel : Nat) :
    runFrom stop count fuel cpu = (count, cpu) := by
  cases fuel with
  | zero => rfl
  | succ fuel => rw [runFrom, (current?_eq_none_iff cpu).2 h]

/-- A climb to where the processor halts is what every long enough run does. -/
theorem Climbs.run_eq {n : Nat} {cpu final : Cpu} (h : Climbs n cpu final) (hhalt : final.halted = true)
    {cycles : Nat} (hn : n ≤ cycles) : cpu.run (fun _ => false) cycles = (n, final) := by
  obtain ⟨fuel, rfl⟩ := Nat.exists_eq_add_of_le hn
  rw [run, h.runFrom_eq, runFrom_halted hhalt, Nat.zero_add]

end Cpu

/-! ## Instructions that do not jump -/

/-- What instructions change besides the program counter. -/
structure Registers where
  ram : Memory
  a : Word
  d : Word

namespace Registers

/-- A processor with these registers. -/
def cpu (r : Registers) (rom : Array Word) (pc : Nat) : Cpu :=
  { rom, ram := r.ram, a := r.a, d := r.d, pc }

/-- The value of a computation. -/
def value (r : Registers) (c : Computation) : Word :=
  c.value r.d (c.secondOperand r.a (r.ram.read r.a.address))

/-- Stores a value. -/
def store (r : Registers) (dest : Destination) (v : Word) : Registers where
  ram := if dest.m then r.ram.write r.a.address v else r.ram
  a := if dest.a then v else r.a
  d := if dest.d then v else r.d

end Registers

namespace Instruction

/-- What an instruction that does not jump does to the registers. -/
def perform (table : List (String × Int)) (r : Registers) : Instruction → Registers
  | address symbol => { r with a := Word.ofInt (addressIn table symbol) }
  | compute dest computation _ =>
    match Computation.ofText? computation with
    | some c => r.store dest (r.value c)
    | none => r
  | label _ | unrecognized _ => r

/-- Instructions that never jump. -/
def isStraight : Instruction → Bool
  | compute _ _ jump => jump == ""
  | address _ | label _ | unrecognized _ => true

variable {table : List (String × Int)}

/-- The code does not jump and turns one memory into another, whatever the registers hold. -/
structure Makes (table : List (String × Int)) (code : List Instruction) (m m' : Memory) : Prop where
  straight : ∀ i ∈ code, i.isStraight = true
  ram : ∀ a d, (code.foldl (perform table) ⟨m, a, d⟩).ram = m'

theorem Makes.append {code code' : List Instruction} {m m' m'' : Memory} (h : Makes table code m m')
    (h' : Makes table code' m' m'') : Makes table (code ++ code') m m'' where
  straight := List.forall_mem_append.2 ⟨h.straight, h'.straight⟩
  ram a d := by
    rw [List.foldl_append, ← h'.ram (code.foldl (perform table) ⟨m, a, d⟩).a (code.foldl (perform table) ⟨m, a, d⟩).d,
      ← h.ram a d]

theorem makes_label (table : List (String × Int)) (name : String) (m : Memory) : Makes table [.label name] m m :=
  ⟨List.forall_mem_singleton.2 rfl, fun _ _ => rfl⟩

end Instruction

theorem Word.address_ofInt (n : Int) : (Word.ofInt n).address = .ofInt 15 n := by
  apply BitVec.eq_of_toNat_eq
  rw [Word.address, Word.ofInt, BitVec.toNat_setWidth, BitVec.toNat_ofInt, BitVec.toNat_ofInt]
  omega

namespace Program

variable {p before code after : Program} {strict : Bool}

theorem current?_cpu (h : p.Assemblable strict) {i : Instruction} {w : Word} (hp : p = before ++ i :: after)
    (hw : Instruction.wordIn? p.symbols i = some w) (r : Registers) :
    (r.cpu p.words.toArray (size before)).current? = some w :=
  getElem?_words h hp hw

theorem climbs_instruction (h : p.Assemblable strict) {i : Instruction} (hp : p = before ++ i :: after)
    (hs : i.isStraight = true) (r : Registers) :
    Cpu.Climbs (size [i]) (r.cpu p.words.toArray (size before))
      ((i.perform p.symbols r).cpu p.words.toArray (size (before ++ [i]))) := by
  rw [size_append]
  cases i with
  | label | unrecognized => exact .refl _
  | address symbol =>
    obtain ⟨hle, hlt⟩ := addressIn_range h (hp ▸ List.mem_append_right _ List.mem_cons_self)
    have hexecute := Cpu.execute_address (Word.msb_ofInt hle hlt) (r.cpu p.words.toArray (size before))
    have hstep := Cpu.Climbs.single (current?_cpu h hp rfl r) (by rw [hexecute]; exact Nat.lt_succ_self _)
    rwa [hexecute] at hstep
  | compute dest computation jump =>
    obtain ⟨hc, -⟩ := h.encodable _ (hp ▸ List.mem_append_right _ List.mem_cons_self)
    obtain ⟨c, hc⟩ := Option.isSome_iff_exists.1 hc
    obtain rfl : jump = "" := by simpa [Instruction.isStraight] using hs
    have hword : Instruction.wordIn? p.symbols (.compute dest computation "") =
        some (Instruction.computeWord c.code dest Jump.never.code) := by
      rw [Instruction.wordIn?, hc]
      rfl
    have hexecute : (r.cpu p.words.toArray (size before)).execute (Instruction.computeWord c.code dest Jump.never.code) =
        (r.store dest (r.value c)).cpu p.words.toArray (size before + 1) := Cpu.execute_computeWord dest c .never _
    have hstep := Cpu.Climbs.single (current?_cpu h hp hword r) (by rw [hexecute]; exact Nat.lt_succ_self _)
    rw [Instruction.perform, hc]
    rwa [hexecute] at hstep

/-- **A run of instructions that do not jump does what they say, one after another.** -/
theorem climbs_straight (h : p.Assemblable strict) (hp : p = before ++ code ++ after)
    (hs : ∀ i ∈ code, i.isStraight = true) (r : Registers) :
    Cpu.Climbs (size code) (r.cpu p.words.toArray (size before))
      ((code.foldl (Instruction.perform p.symbols) r).cpu p.words.toArray (size (before ++ code))) := by
  induction code generalizing before r with
  | nil =>
    rw [List.append_nil]
    exact .refl _
  | cons i code ih =>
    obtain ⟨hi, hs⟩ := List.forall_mem_cons.1 hs
    have hsplit : p = (before ++ [i]) ++ code ++ after := by simp [hp]
    have hall := (climbs_instruction h (hp.trans (List.append_assoc _ _ _)) hi r).trans
      (ih hsplit hs (i.perform p.symbols r))
    rwa [← size_append, List.append_assoc, List.singleton_append] at hall

/-- From one place with one memory the processor climbs to another place with another memory,
whatever its registers hold. -/
def Leads (p : Program) (pc : Nat) (m : Memory) (pc' : Nat) (m' : Memory) : Prop :=
  ∀ a d, ∃ n a' d', Cpu.Climbs n (Registers.cpu ⟨m, a, d⟩ p.words.toArray pc)
    (Registers.cpu ⟨m', a', d'⟩ p.words.toArray pc')

variable {m m' m'' : Memory} {pc pc' pc'' : Nat}

theorem Leads.refl (p : Program) (pc : Nat) (m : Memory) : p.Leads pc m pc m :=
  fun a d => ⟨0, a, d, .refl _⟩

theorem Leads.trans (h : p.Leads pc m pc' m') (h' : p.Leads pc' m' pc'' m'') : p.Leads pc m pc'' m'' := by
  intro a d
  obtain ⟨n, a', d', hn⟩ := h a d
  obtain ⟨n', a'', d'', hn'⟩ := h' a' d'
  exact ⟨n + n', a'', d'', hn.trans hn'⟩

theorem leads_straight (h : p.Assemblable strict) (hp : p = before ++ code ++ after)
    (hmakes : Instruction.Makes p.symbols code m m') : p.Leads (size before) m (size (before ++ code)) m' := by
  intro a d
  refine ⟨size code, (code.foldl (Instruction.perform p.symbols) ⟨m, a, d⟩).a,
    (code.foldl (Instruction.perform p.symbols) ⟨m, a, d⟩).d, ?_⟩
  rw [← hmakes.ram a d]
  exact climbs_straight h hp hmakes.straight ⟨m, a, d⟩

/-! ## Instructions that jump -/

/-- An instruction that jumps and stores nothing goes to where A points, or to the next one. -/
theorem climbs_jump (h : p.Assemblable strict) {computation jump : String} {c : Computation} {j : Jump}
    (hp : p = before ++ .compute .none computation jump :: after) (hc : Computation.ofText? computation = some c)
    (hj : Jump.ofText? jump = some j) (r : Registers) {target : Nat}
    (htarget : target = if j.taken (r.value c).signed then r.a.address.toNat else size before + 1)
    (hlt : size before < target) :
    Cpu.Climbs 1 (r.cpu p.words.toArray (size before)) (r.cpu p.words.toArray target) := by
  have hword : Instruction.wordIn? p.symbols (.compute .none computation jump) =
      some (Instruction.computeWord c.code .none j.code) := by
    rw [Instruction.wordIn?, hc, hj]
    rfl
  have hexecute : (r.cpu p.words.toArray (size before)).execute (Instruction.computeWord c.code .none j.code) =
      r.cpu p.words.toArray target := by
    rw [Cpu.execute_computeWord, htarget]
    rfl
  have hstep := Cpu.Climbs.single (current?_cpu h hp hword r) (by rw [hexecute]; exact hlt)
  rwa [hexecute] at hstep

/-- A loaded label points to the instruction that follows it. -/
theorem address_label (h : p.Assemblable strict) {name : String} (hp : p = before ++ .label name :: after)
    (hname : Text.isNumeral name.toList = false) (hi : .address name ∈ p) :
    (Word.ofInt (Instruction.addressIn p.symbols name)).address.toNat = size before := by
  obtain ⟨hle, hlt⟩ := addressIn_range h hi
  rw [addressIn_label h.toResolvable hp hname] at hle hlt ⊢
  rw [Word.address_ofInt, BitVec.toNat_ofInt]
  omega

/-- Jumping to a label further on. -/
theorem climbs_jump_label (h : p.Assemblable strict) {name computation jump : String} {c : Computation} {j : Jump}
    {place rest : Program} (hp : p = before ++ .address name :: .compute .none computation jump :: after)
    (hlabel : p = place ++ .label name :: rest) (hname : Text.isNumeral name.toList = false)
    (hc : Computation.ofText? computation = some c) (hj : Jump.ofText? jump = some j)
    (hlt : size before + 1 < size place) (r : Registers) :
    Cpu.Climbs 2 (r.cpu p.words.toArray (size before))
      ((Instruction.perform p.symbols r (.address name)).cpu p.words.toArray
        (if j.taken ((Instruction.perform p.symbols r (.address name)).value c).signed then size place else size before + 2)) := by
  have hload := climbs_instruction h hp rfl r
  have hp' : p = before ++ [.address name] ++ .compute .none computation jump :: after := by simp [hp]
  have hsize : size (before ++ [.address name]) = size before + 1 := size_append _ _
  have hplace : (Instruction.perform p.symbols r (.address name)).a.address.toNat = size place :=
    address_label h hlabel hname (by simp [hp])
  refine hload.trans (climbs_jump h hp' hc hj _ ?_ ?_)
  · rw [hplace, hsize]
  · rw [hsize]
    split <;> omega

end Program

end HackToolchain
