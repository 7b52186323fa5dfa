import HackToolchain.Proofs.Halting
import Mathlib
/-!
Comparisons of signed words. A comparison looks at the difference of two words, which is a signed
word itself. As long as the difference of the two numbers fits into a word, the comparison says
what it should about the numbers; if it does not fit, the difference has the wrong sign, and the
numbers are compared the other way round.
-/

namespace HackToolchain

open Program Translator

/-! ## Signed differences -/

/-- What a comparison asks of two numbers. -/
def Operation.relation? : Operation → Option (Int → Int → Bool)
  | eq => some fun x y => x = y
  | lt => some fun x y => x < y
  | gt => some fun x y => x > y
  | add | sub | and | or | neg | not => none

namespace Word

/-- The difference of the numbers that two words stand for fits into a word. -/
def Near (x y : Word) : Prop :=
  -32768 ≤ x.signed - y.signed ∧ x.signed - y.signed < 32768

instance (x y : Word) : Decidable (x.Near y) :=
  inferInstanceAs (Decidable (-32768 ≤ x.signed - y.signed ∧ x.signed - y.signed < 32768))

theorem signed_range (w : Word) : -32768 ≤ w.signed ∧ w.signed < 32768 :=
  ⟨BitVec.le_toInt w, BitVec.toInt_lt⟩

theorem signed_sub (x y : Word) : (x - y).signed = Int.bmod (x.signed - y.signed) 65536 :=
  BitVec.toInt_sub

theorem signed_sub_of_near {x y : Word} (h : x.Near y) : (x - y).signed = x.signed - y.signed := by
  rw [signed_sub, Int.bmod_eq_of_le h.1 h.2]

/-- A difference that does not fit has the wrong sign. -/
theorem signed_sub_of_far {x y : Word} (h : ¬ x.Near y) :
    (x - y).signed = x.signed - y.signed + 65536 ∧ x.signed < y.signed ∨
      (x - y).signed = x.signed - y.signed - 65536 ∧ y.signed < x.signed := by
  have hx := x.signed_range
  have hy := y.signed_range
  rw [Near] at h
  rw [signed_sub, Int.bmod]
  omega

end Word

namespace Operation

variable {operation : Operation} {holds : Int → Int → Bool}

/-- **The test of a comparison** on a difference of words: what it asks of their numbers, or of the
numbers in the other order if their difference does not fit. -/
theorem comparison_of_relation? (h : operation.relation? = some holds) :
    ∃ jump test, operation.comparison? = some jump ∧ operation.meaning = .comparison test ∧
      ∀ x y : Word, test (x - y).signed = if x.Near y then holds x.signed y.signed else holds y.signed x.signed := by
  cases operation with
  | eq | lt | gt =>
    cases h
    refine ⟨_, _, rfl, rfl, fun x y => ?_⟩
    by_cases hnear : x.Near y
    · simp only [Word.signed_sub_of_near hnear, if_pos hnear, decide_eq_decide]
      omega
    · have hx := x.signed_range
      have hy := y.signed_range
      simp only [if_neg hnear, decide_eq_decide]
      rcases Word.signed_sub_of_far hnear with hfar | hfar <;> omega
  | add | sub | and | or | neg | not => cases h

/-- Numbers that are too far apart differ, so it matters in which order they are compared, unless
they are only asked to be equal. -/
theorem truth_eq_iff (h : operation.relation? = some holds) (x y : Word) :
    truth (if x.Near y then holds x.signed y.signed else holds y.signed x.signed) = truth (holds x.signed y.signed) ↔
      operation = .eq ∨ x.Near y := by
  have htruth : ∀ b b' : Bool, truth b = truth b' ↔ b = b' := by decide
  by_cases hnear : x.Near y
  · simp [hnear]
  · have hne : x.signed ≠ y.signed := by
      intro heq
      exact hnear ⟨by omega, by omega⟩
    rw [if_neg hnear, htruth]
    cases operation with
    | eq | lt | gt =>
      cases h
      simp only [decide_eq_decide, reduceCtorEq, hnear, or_false, iff_false, iff_true]
      omega
    | add | sub | and | or | neg | not => cases h

end Operation

/-! ## The code of one comparison -/

namespace Translator

open Instruction

variable {options : Options} {k : Nat} {operation : Operation} {jump : String}

/-- What holds of the fixed instructions holds of a comparison if it holds of its labels. -/
theorem forall_mem_comparison {P : Instruction → Prop} (hfixed : ∀ i ∈ fixedCode, P i)
    (hj : operation.comparison? = some jump) : (∀ i ∈ operationCode options k operation, P i) ↔
      ∀ s ∈ [startLabel options k, endLabel options k], P (load s) ∧ P (.label s) := by
  have hlabels : (Command.arithmetic operation).labels options k = [startLabel options k, endLabel options k] := by
    simp [Command.labels, Command.comparisons, hj]
  have h := Command.forall_mem_code hfixed "" options k (.arithmetic operation)
  rw [hlabels] at h
  exact h.trans (and_iff_right (List.forall_mem_nil _))

theorem isSymbolName_of_mem_labels {s : String} (hs : s ∈ [startLabel options k, endLabel options k]) :
    isSymbolName s.toList = true ↔ options.labelStart = "" ∨ isSymbolName options.labelStart.toList = true := by
  rcases List.mem_cons.1 hs with rfl | hs
  · exact isSymbolName_comparisonLabel_iff rfl
  · rw [List.mem_singleton.1 hs]
    exact isSymbolName_comparisonLabel_iff rfl

theorem legible_comparison (hj : operation.comparison? = some jump)
    (hstart : options.labelStart = "" ∨ isSymbolName options.labelStart.toList = true) :
    ∀ i ∈ operationCode options k operation, i.Legible := by
  refine (forall_mem_comparison fixedCode_legible hj).2 fun s hs => ?_
  have hname := (isSymbolName_of_mem_labels hs).2 hstart
  exact ⟨legible_address (.inr hname), legible_label hname⟩

/-- The lines of a comparison are well formed exactly if its labels have names. -/
theorem wellFormed_comparison_iff (hj : operation.comparison? = some jump) :
    WellFormed (((operationCode options k operation).map render).map .raw) ↔
      options.labelStart = "" ∨ isSymbolName options.labelStart.toList = true := by
  constructor
  · intro hwf
    have hreadable : ∀ i ∈ operationCode options k operation, i.Readable :=
      fun i hi => hwf _ (List.mem_map_of_mem (List.mem_map_of_mem hi))
    obtain ⟨hload, hlabel⟩ := (forall_mem_comparison (fun i hi => (fixedCode_legible i hi).readable) hj).1 hreadable
      (startLabel options k) List.mem_cons_self
    exact (isSymbolName_of_mem_labels List.mem_cons_self).1 (isSymbolName_of_readable hload hlabel)
  · exact fun hstart => ((Spells.map_render _).read (legible_comparison hj hstart)).1

/-- The code of a comparison can be assembled on its own, with any labels. -/
theorem assemblable_comparison (hj : operation.comparison? = some jump) (strict : Bool) :
    Assemblable strict (operationCode options k operation) := by
  obtain ⟨j, hjump, -, hcode⟩ := comparison_cases hj
  have hlabels : Program.labels (operationCode options k operation) =
      [(startLabel options k, 19), (endLabel options k, 22)] := by
    rw [hcode]
    rfl
  have hsize : size (operationCode options k operation) = 22 := by
    rw [hcode]
    rfl
  have hnew : ∀ s ∈ [startLabel options k, endLabel options k], s ∉ predefinedNames := by
    refine List.forall_mem_cons.2 ⟨?_, List.forall_mem_singleton.2 ?_⟩
    · exact not_predefined_of_mem (.inl rfl) (by simp [startLabel, comparisonLabel])
    · exact not_predefined_of_mem (.inl rfl) (by simp [endLabel, comparisonLabel])
  have hunbound : unbound (operationCode options k operation) = [] := by
    have huses : ∀ i ∈ operationCode options k operation,
        Command.UsesOnly (predefinedNames ++ [startLabel options k, endLabel options k]) i := by
      refine (forall_mem_comparison (Command.usesOnly_fixedCode fun _ => List.mem_append_left _) hj).2 fun s hs => ?_
      refine ⟨Command.usesOnly_of_mem (List.mem_append_right _ hs), fun t ht => ?_⟩
      cases ht
    rw [unbound, hlabels, fresh, List.filter_eq_nil_iff.2]
    · rfl
    · intro s hs
      obtain ⟨i, hi, his⟩ := List.mem_filterMap.1 hs
      exact fun hs => of_decide_eq_true hs (huses i hi s his)
  have hencodable : ∀ i ∈ fixedCode, i.Encodable strict := by cases strict <;> decide
  refine ⟨⟨?_, ?_, by omega, ?_⟩, by simp [hunbound], ?_⟩
  · rw [hlabels]
    simpa using startLabel_ne_endLabel options k k
  · rw [hlabels]
    exact hnew
  · rw [hlabels]
    simp
  · refine (forall_mem_comparison hencodable hj).2 fun s hs => ⟨fun hnum => ?_, trivial⟩
    have hname : Text.isNumeral s.toList = false := by
      rcases List.mem_cons.1 hs with rfl | hs
      · exact isNumeral_comparisonLabel options k _
      · rw [List.mem_singleton.1 hs]
        exact isNumeral_comparisonLabel options k _
    rw [hname] at hnum
    cases hnum

/-- A comparison is written whatever has been written before it. -/
theorem wrote_of_compare (hj : operation.comparison? = some jump) (t : Translator) :
    ∃ t', compare operation t = .ok () t' ∧ Wrote t (operationCode t.options t.labels operation) 1 t' := by
  have hok : ∃ t', compare operation t = .ok () t' := by
    rw [compare, hj]
    exact ⟨_, rfl⟩
  have heq : arithmetic operation = compare operation := by
    cases operation with
    | eq | lt | gt => rfl
    | add | sub | and | or | neg | not => cases hj
  obtain ⟨t', ht'⟩ := hok
  obtain ⟨j, -, -, hcode⟩ := comparison_cases hj
  rw [hcode]
  exact ⟨t', ht', wrote_of_comparison hj (heq ▸ ht')⟩

end Translator

/-! ## Running one comparison -/

namespace StackMachine

variable {operation : Operation} {test : Int → Bool} {m : Memory}

/-- The place below the top is neither the stack pointer nor scratch. -/
theorem second_clear (hle : 258 ≤ m.sp.toNat) (hlt : m.sp.toNat ≤ 32767) :
    (m.sp - 2).address ≠ 0 ∧ (m.sp - 2).address ≠ 13 := by
  have haddress : (m.sp - 2).address.toNat = m.sp.toNat - 2 := by
    rw [Word.address, BitVec.toNat_setWidth]
    bv_omega
  constructor
  · intro h
    rw [h] at haddress
    bv_omega
  · intro h
    rw [h] at haddress
    bv_omega

/-- On a stack at its usual place, a comparison spills the top and writes below it. -/
theorem effect_comparison (machine : StackMachine) (hmeaning : operation.meaning = .comparison test)
    (hle : 258 ≤ m.sp.toNat) (hlt : m.sp.toNat ≤ 32767) :
    machine.effect m (.arithmetic operation) =
      ((m.write 0 (m.sp - 1)).write 13 (m.read (m.sp - 1).address)).write (m.sp - 2).address
        (truth (test (m.read (m.sp - 2).address - m.read (m.sp - 1).address).signed)) := by
  obtain ⟨hzero, hscratch⟩ := second_clear hle hlt
  have hsp : ∀ y : Word, ((m.write 0 (m.sp - 1)).write 13 y).sp - 1 = m.sp - 2 := by
    intro y
    rw [Memory.sp, Memory.read_write, if_neg (by decide), Memory.read_write, if_pos rfl]
    exact BitVec.sub_sub _ _ _
  rw [effect, hmeaning]
  simp only [hsp]
  rw [Memory.read_write, if_neg hscratch, Memory.read_write, if_neg hzero]

end StackMachine

namespace Translator

variable {operation : Operation} {holds : Int → Int → Bool}

/-- **The words of a comparison leave its outcome** in the place of the second value. -/
theorem run_comparison (hrel : operation.relation? = some holds) (options : Options) (k : Nat) (m : Memory)
    (hle : 258 ≤ m.sp.toNat) (hlt : m.sp.toNat ≤ 32767) (a d : Word) :
    let rom := words (operationCode options k operation)
    let x := m.read (m.sp - 2).address
    let y := m.read (m.sp - 1).address
    ∃ n final, (∀ cycles, rom.length ≤ cycles →
        (Registers.cpu ⟨m, a, d⟩ rom.toArray 0).run (fun _ => false) cycles = (n, final)) ∧
      final.halted = true ∧ final.ram.sp = m.sp - 1 ∧
      final.ram.read (m.sp - 2).address =
        truth (if x.Near y then holds x.signed y.signed else holds y.signed x.signed) ∧
      ∀ b, b ≠ 0 → b ≠ 13 → b ≠ (m.sp - 2).address → final.ram.read b = m.read b := by
  intro rom x y
  obtain ⟨jump, test, hj, hmeaning, htest⟩ := Operation.comparison_of_relation? hrel
  have hassemblable : Assemblable true (operationCode options k operation) := assemblable_comparison hj true
  have hleads : Leads (operationCode options k operation) (size []) m (size ([] ++ operationCode options k operation))
      (StackMachine.effect ⟨0, 0, []⟩ m (.arithmetic operation)) :=
    leads_comparison hassemblable hj (List.append_nil _).symm m
  obtain ⟨n, a', d', hn⟩ := hleads a d
  obtain ⟨-, hhalted, hrun⟩ := halts_of_climbs hassemblable hn
  obtain ⟨hzero, hscratch⟩ := StackMachine.second_clear hle hlt
  refine ⟨n, _, hrun, hhalted, ?_⟩
  rw [Registers.cpu, StackMachine.effect_comparison ⟨0, 0, []⟩ hmeaning hle hlt, htest]
  refine ⟨?_, ?_, fun b hb hb' hb'' => ?_⟩
  · rw [Memory.sp, Memory.read_write, if_neg hzero.symm, Memory.read_write, if_neg (by decide), Memory.read_write,
      if_pos rfl]
  · rw [Memory.read_write, if_pos rfl]
  · rw [Memory.read_write, if_neg hb'', Memory.read_write, if_neg hb', Memory.read_write, if_neg hb]

/-- The lines of a comparison that are accepted become its words, which can be loaded. -/
theorem load_comparison {options : Options} {k : Nat} {jump : String} (hj : operation.comparison? = some jump)
    {strict : Bool} {rom : List Word} {s : Assembler}
    (h : assembleLines strict (((operationCode options k operation).map Instruction.render).map .raw) = .ok rom s) :
    rom = words (operationCode options k operation) ∧
      romWords (rom.map fun w => .raw (bits w)) >>= Cpu.load = .ok { rom := rom.toArray } := by
  obtain ⟨⟨hwf, -⟩, -, hwords, -⟩ := Assembler.assembled h
  have hstart := (wellFormed_comparison_iff hj).1 hwf
  rw [((Spells.map_render _).read (legible_comparison hj hstart)).2] at hwords
  refine ⟨hwords, ?_⟩
  rw [romWords_bits, hwords]
  exact load_words (assemblable_comparison hj strict)

/-- Labels with names are all that is needed for the lines to be accepted. -/
theorem exists_assembled_comparison {k : Nat} {jump : String} (hj : operation.comparison? = some jump)
    (options : Options) (hstart : options.labelStart = "" ∨ Instruction.isSymbolName options.labelStart.toList = true)
    (strict : Bool) : ∃ rom s,
      assembleLines strict (((operationCode options k operation).map Instruction.render).map .raw) = .ok rom s := by
  obtain ⟨hwf, hprogram⟩ := (Spells.map_render _).read (legible_comparison (k := k) hj hstart)
  refine Assembler.exists_assembled hwf ?_
  rw [hprogram]
  exact assemblable_comparison hj strict

end Translator

/-- **What comparisons decide.** A comparison is written by every translator, and its lines are
accepted if its labels have names. Its words replace the two values on top of the stack by -1 or 0
and leave all else alone but for the scratch cell. The outcome is the one that the signed numbers
should have exactly if they are only asked to be equal or their difference fits into a word;
otherwise it is that of the numbers in the other order. -/
theorem comparison_decides_near_words (operation : Operation) (holds : Int → Int → Bool)
    (hrel : operation.relation? = some holds) (t : Translator) (strict : Bool) :
    ∃ t' code, Translator.compare operation t = .ok () t' ∧ t'.buffer.toList = t.buffer.toList ++ code ∧
      ((∃ rom s, assembleLines strict (code.map .raw) = .ok rom s) ↔
        t.options.labelStart = "" ∨ Instruction.isSymbolName t.options.labelStart.toList = true) ∧
      ∀ rom s, assembleLines strict (code.map .raw) = .ok rom s →
        ∃ cpu, romWords (rom.map fun w => .raw (bits w)) >>= Cpu.load = .ok cpu ∧
          ∀ (ram : Memory) (a d : Word), 258 ≤ ram.sp.toNat → ram.sp.toNat ≤ 32767 →
            let x := ram.read (ram.sp - 2).address
            let y := ram.read (ram.sp - 1).address
            ∃ n final, (∀ cycles, rom.length ≤ cycles →
                { cpu with ram, a, d }.run (fun _ => false) cycles = (n, final)) ∧
              final.halted = true ∧ final.ram.sp = ram.sp - 1 ∧
              final.ram.read (ram.sp - 2).address =
                truth (if x.Near y then holds x.signed y.signed else holds y.signed x.signed) ∧
              (final.ram.read (ram.sp - 2).address = truth (holds x.signed y.signed) ↔
                operation = .eq ∨ x.Near y) ∧
              ∀ b, b ≠ 0 → b ≠ 13 → b ≠ (ram.sp - 2).address → final.ram.read b = ram.read b := by
  obtain ⟨jump, -, hj, -, -⟩ := Operation.comparison_of_relation? hrel
  obtain ⟨t', hcompare, hwrote⟩ := wrote_of_compare hj t
  refine ⟨t', _, hcompare, hwrote.buffer, ⟨?_, fun hstart => exists_assembled_comparison hj _ hstart strict⟩, ?_⟩
  · rintro ⟨rom, s, h⟩
    exact (wellFormed_comparison_iff hj).1 (Assembler.assembled h).1.1
  · intro rom s h
    obtain ⟨rfl, hload⟩ := load_comparison hj h
    refine ⟨_, hload, fun ram a d hle hlt => ?_⟩
    obtain ⟨n, final, hrun, hhalted, hsp, hanswer, hframe⟩ :=
      run_comparison hrel t.options t.labels ram hle hlt a d
    refine ⟨n, final, hrun, hhalted, hsp, hanswer, ?_, hframe⟩
    rw [hanswer]
    exact Operation.truth_eq_iff hrel _ _

/-- Two numbers of opposite sign whose difference just fits, at the end of the memory. -/
theorem comparison_decides_at_limit :
    let ram := ((Memory.zero.write 0 32767).write 32765 16384).write 32766 (-16383)
    ∃ t' code, Translator.compare .gt { name := "Main", options := { labelStart := "" }, labels := 7 } = .ok () t' ∧
      t'.buffer.toList = code ∧ ∃ rom s, assembleLines true (code.map .raw) = .ok rom s ∧
      ∃ cpu, romWords (rom.map fun w => .raw (bits w)) >>= Cpu.load = .ok cpu ∧
      ∃ n final, { cpu with ram }.run (fun _ => false) rom.length = (n, final) ∧
        final.ram.sp = 32766 ∧ final.ram.read 32765 = -1 := by
  intro ram
  have hsp : ram.sp = 32767 := by simp [ram, Memory.sp, Memory.read_write]
  have hx : ram.read 32765 = 16384 := by simp [ram, Memory.read_write]
  have hy : ram.read 32766 = -16383 := by simp [ram, Memory.read_write]
  obtain ⟨t', code, hcompare, hbuffer, hassembled, hruns⟩ := comparison_decides_near_words .gt _ rfl
    { name := "Main", options := { labelStart := "" }, labels := 7 } true
  obtain ⟨rom, s, hassemble⟩ := hassembled.2 (.inl rfl)
  obtain ⟨cpu, hload, hcpu⟩ := hruns rom s hassemble
  obtain ⟨n, final, hrun, -, hpopped, hanswer, -, -⟩ :=
    hcpu ram cpu.a cpu.d (by rw [hsp]; decide) (by rw [hsp]; decide)
  rw [hsp] at hpopped hanswer
  rw [show Word.address (32767 - 2) = 32765 by decide, show Word.address (32767 - 1) = 32766 by decide, hx, hy] at hanswer
  exact ⟨t', code, hcompare, hbuffer, rom, s, hassemble, cpu, hload, n, final, hrun _ (Nat.le_refl _), hpopped, hanswer⟩

/-- **A comparison of numbers that are too far apart is wrong:** 32767 is said to be less than -1. -/
theorem comparison_overflow_wrong :
    let ram := ((Memory.zero.write 0 258).write 256 32767).write 257 (-1)
    ∃ t' code, Translator.compare .lt (Translator.start "Main" {}) = .ok () t' ∧ t'.buffer.toList = code ∧
      ∃ rom s, assembleLines true (code.map .raw) = .ok rom s ∧
      ∃ cpu, romWords (rom.map fun w => .raw (bits w)) >>= Cpu.load = .ok cpu ∧
      ∃ n final, { cpu with ram }.run (fun _ => false) rom.length = (n, final) ∧ final.halted = true ∧
        final.ram.read 256 = -1 ∧ ¬ Word.signed 32767 < Word.signed (-1) := by
  intro ram
  have hsp : ram.sp = 258 := by simp [ram, Memory.sp, Memory.read_write]
  have hx : ram.read 256 = 32767 := by simp [ram, Memory.read_write]
  have hy : ram.read 257 = -1 := by simp [ram, Memory.read_write]
  have hrel : Operation.lt.relation? = some fun x y => decide (x < y) := rfl
  have hj : Operation.lt.comparison? = some "JLT" := rfl
  obtain ⟨t', hcompare, hwrote⟩ := wrote_of_compare hj (Translator.start "Main" {})
  obtain ⟨rom, s, hassemble⟩ := exists_assembled_comparison (k := 0) hj {} (.inr rfl) true
  obtain ⟨hrom, hload⟩ := load_comparison hj hassemble
  obtain ⟨n, final, hrun, hhalted, -, hanswer, -⟩ :=
    run_comparison hrel {} 0 ram (by rw [hsp]; decide) (by rw [hsp]; decide) 0 0
  rw [← hrom] at hrun
  rw [hsp, show Word.address (258 - 2) = 256 by decide, show Word.address (258 - 1) = 257 by decide, hx, hy] at hanswer
  exact ⟨t', _, hcompare, hwrote.buffer, rom, s, hassemble, _, hload, n, final, hrun _ (Nat.le_refl _), hhalted, hanswer,
    by decide⟩

end HackToolchain
