import HackToolchain.Proofs.Compilation
import Mathlib
/-!
The effect of a command against the step of the machine. On memories that agree outside the scratch
cells, a clear command has an effect and a step that agree outside them again; so do the effects and
the steps of all commands of a run that stays clear. Together with the run of an assembled unit this
is the correctness of the whole chain from commands to the processor.
-/

namespace HackToolchain

open StackMachine

namespace Memory.Agrees

variable {m m' m'' : Memory} {a b : Address} {v v' : Word}

theorem refl (m : Memory) : m.Agrees m :=
  fun _ _ => rfl

theorem trans (h : m.Agrees m') (h' : m'.Agrees m'') : m.Agrees m'' :=
  fun a ha => (h a ha).trans (h' a ha)

theorem sp (h : m.Agrees m') : m.sp = m'.sp :=
  h 0 rfl

/-- What is written matters outside the scratch cells only. -/
theorem write (h : m.Agrees m') (hv : isScratch a = false → v = v') : (m.write a v).Agrees (m'.write a v') := by
  intro b hb
  rw [read_write, read_write]
  split
  next hab => exact hv (hab ▸ hb)
  · exact h b hb

theorem popped (h : m.Agrees m') : (m.write 0 (m.sp - 1)).Agrees (m'.write 0 (m'.sp - 1)) :=
  h.write fun _ => by rw [h.sp]

theorem write_scratch (h : m.Agrees m') (ha : isScratch a = true) (v : Word) : (m.write a v).Agrees m' := by
  intro b hb
  rw [read_write, if_neg, h b hb]
  rintro rfl
  rw [ha] at hb
  cases hb

theorem write_comm (h : a ≠ b) (m : Memory) (v w : Word) :
    ((m.write a v).write b w).Agrees ((m.write b w).write a v) := by
  intro x _
  rw [read_write, read_write, read_write, read_write]
  split
  next hb => rw [if_neg (fun ha => h (ha.symm.trans hb))]
  · rfl

end Memory.Agrees

namespace StackMachine

variable {machine : StackMachine} {m m' : Memory}

/-- The bases of segments are no scratch cells, so the cells are the same. -/
theorem cell?_congr (h : m.Agrees m') (segment : Segment) (offset : Nat) :
    machine.cell? m segment offset = machine.cell? m' segment offset := by
  cases hb : segment.base? with
  | some r =>
    rw [cell?_based hb, cell?_based hb, h r (Segment.base_clear hb).2]
  | none =>
    unfold cell?
    rw [hb]

theorem agrees_push (h : m.Agrees m') {segment : Segment} {offset : Nat} (hc : machine.Clear m' (.push segment offset)) :
    (machine.effect m (.push segment offset)).Agrees (machine.step m' (.push segment offset)) := by
  obtain ⟨hsp, hcell⟩ := hc
  have hvalue : machine.value m segment offset = machine.value m' segment offset := by
    rw [value, value, cell?_congr h]
    cases hr : machine.cell? m' segment offset with
    | some a => exact h a (hcell a hr)
    | none => rfl
  have hnext : (m.write m.sp.address (machine.value m segment offset)).sp = m'.sp := by
    rw [Memory.sp, Memory.read_write, if_neg (by rw [h.sp]; exact hsp.symm), ← h.sp, Memory.sp]
  rw [effect, step, hnext, hvalue, h.sp]
  exact (h.write fun _ => rfl).write fun _ => rfl

theorem agrees_pop (h : m.Agrees m') {segment : Segment} {offset : Nat} (hc : machine.Clear m' (.pop segment offset)) :
    (machine.effect m (.pop segment offset)).Agrees (machine.step m' (.pop segment offset)) := by
  have hvalue : m.read (m.sp - 1).address = m'.read (m'.sp - 1).address := by rw [h.sp]; exact h _ hc
  rw [effect, step, ← cell?_congr h, hvalue]
  cases hb : segment.base? with
  | some r =>
    rw [cell?_based hb]
    exact ((h.popped.write_scratch rfl _).write_scratch rfl _).write fun _ => rfl
  | none =>
    cases machine.cell? m segment offset with
    | some a => exact h.popped.write fun _ => rfl
    | none => exact h

/-- Writing below the top after the stack pointer has been lowered, or before. The value may depend
on the cell that is written. -/
theorem agrees_replace {lowered : Memory} (h : lowered.Agrees (m'.write 0 (m'.sp - 1)))
    (hne : (m'.sp - 2).address ≠ 0) (f : Word → Word) :
    (lowered.write (lowered.sp - 1).address (f (lowered.read (lowered.sp - 1).address))).Agrees
      ((m'.write (m'.sp - 2).address (f (m'.read (m'.sp - 2).address))).write 0 (m'.sp - 1)) := by
  have hsecond : lowered.sp - 1 = m'.sp - 2 := by
    rw [h.sp, Memory.sp, Memory.read_write, if_pos rfl]
    exact BitVec.sub_sub _ _ _
  rw [hsecond]
  refine .trans (h.write fun ha => ?_) (.write_comm hne.symm m' _ _)
  rw [h _ ha, Memory.read_write, if_neg hne]

theorem agrees_arithmetic (h : m.Agrees m') {operation : Operation} (hc : machine.Clear m' (.arithmetic operation)) :
    (machine.effect m (.arithmetic operation)).Agrees (machine.step m' (.arithmetic operation)) := by
  have htop : isScratch (m'.sp - 1).address = false → m.read (m.sp - 1).address = m'.read (m'.sp - 1).address := by
    rw [h.sp]
    exact h _
  rw [Clear] at hc
  rw [effect, step]
  cases hm : operation.meaning with
  | unary f =>
    show Memory.Agrees (m.write (m.sp - 1).address (f _)) _
    rw [h.sp] at htop ⊢
    exact h.write fun ha => congrArg f (htop ha)
  | binary f =>
    rw [hm] at hc
    simp only [htop hc.2]
    exact agrees_replace h.popped hc.1 (f · _)
  | comparison holds =>
    rw [hm] at hc
    simp only [htop hc.2]
    exact agrees_replace (h.popped.write_scratch rfl _) hc.1 fun x => truth (holds (x - _).signed)

/-- **A clear command has the effect of its step,** outside the scratch cells. -/
theorem agrees_effect (h : m.Agrees m') {c : Command} (hc : machine.Clear m' c) :
    (machine.effect m c).Agrees (machine.step m' c) := by
  cases c with
  | push segment offset => exact agrees_push h hc
  | pop segment offset => exact agrees_pop h hc
  | arithmetic operation => exact agrees_arithmetic h hc
  | unsupported | unrecognized => exact h

theorem agrees_run (h : m.Agrees m') {cs : List Command} (hcs : machine.RunsClear m' cs) :
    (cs.foldl machine.effect m).Agrees (machine.run m' cs) := by
  induction cs generalizing m m' with
  | nil => exact h
  | cons c cs ih => exact ih (agrees_effect h hcs.1) hcs.2

end StackMachine

/-- **Translated and assembled commands run as the machine does.** The words of a unit without a
loop can be written and loaded; from any memory and registers the processor halts at the end of the
program within as many steps as there are words. It leaves exactly the effects of the commands, and
outside the scratch cells these are what the machine leaves, if its run is clear. -/
theorem translated_unit_runs_as_machine (name : String) (options : Translator.Options) (ho : options.Sound)
    (hloop : options.endLoop = false) (lines : List Line) (out : List String) (t : Translator)
    (htranslate : translateLines name options lines = .ok out t) (strict : Bool) (words : List Word) (s : Assembler)
    (hassemble : assembleLines strict (out.map .raw) = .ok words s) :
    ∃ cpu, romWords (words.map fun w => .raw (bits w)) >>= Cpu.load = .ok cpu ∧ ∀ (ram : Memory) (a d : Word),
      ∃ n final, n ≤ words.length ∧ final.pc = words.length ∧ final.halted = true ∧
        (∀ cycles, words.length ≤ cycles → { cpu with ram, a, d }.run (fun _ => false) cycles = (n, final)) ∧
        final.ram = (commands lines).foldl (Translator.unitMachine options (commands lines)).effect ram ∧
        ((Translator.unitMachine options (commands lines)).RunsClear ram (commands lines) →
          final.ram.Agrees ((Translator.unitMachine options (commands lines)).run ram (commands lines))) := by
  obtain ⟨⟨-, hassemblable⟩, -, hwords, -⟩ := Assembler.assembled hassemble
  have hprogram := (program_of_translateLines ho htranslate).2
  rw [hprogram] at hassemblable hwords
  have hload : Cpu.load words = .ok { rom := words.toArray } := by
    have hlength : (words.length : Int) ≤ Platform.addressSpace := by
      rw [hwords, Program.length_words hassemblable]
      exact Int.ofNat_le.2 hassemblable.size_le
    rw [Cpu.load, if_neg (Int.not_lt.2 hlength)]
  refine ⟨{ rom := words.toArray }, ?_, fun ram a d => ?_⟩
  · rw [romWords_bits]
    exact hload
  · obtain ⟨n, final, hn, hpc, hhalted, hram, hrun⟩ := Translator.run_unitCode ho hloop hassemblable ⟨ram, a, d⟩
    rw [← hwords] at hn hpc hrun
    refine ⟨n, final, hn, hpc, hhalted, hrun, hram, fun hclear => ?_⟩
    rw [hram]
    exact StackMachine.agrees_run (.refl ram) hclear

/-- A comparison whose outcome goes into the second static cell, with a stack at its usual place. -/
theorem translated_comparison_runs :
    let lines : List Line := [.raw "push static 4", .raw "push constant 7", .raw "lt // zero is less", .raw "pop static 9"]
    ∃ out t, translateLines "Main.vm" {} lines = .ok out t ∧
      ∃ words s, assembleLines true (out.map .raw) = .ok words s ∧
      ∃ cpu, romWords (words.map fun w => .raw (bits w)) >>= Cpu.load = .ok cpu ∧
      ∃ n final, n ≤ words.length ∧
        { cpu with ram := Memory.zero.write 0 256 }.run (fun _ => false) words.length = (n, final) ∧
        final.ram.sp = 256 ∧ final.ram.read 16 = 0 ∧ final.ram.read 17 = -1 := by
  intro lines
  obtain ⟨out, t, htranslate⟩ := exists_ok_of_succeeded (r := translateLines "Main.vm" {} lines) (by decide +kernel)
  have ho : Translator.Options.Sound {} := ⟨by decide, by decide, .inr rfl⟩
  have hassemblable : (Program.ofLines (out.map .raw)).Assemblable true := by
    refine (assemblable_of_translateLines ho htranslate true).2 ?_
    rw [(program_of_translateLines ho htranslate).2]
    decide +kernel
  obtain ⟨words, s, hassemble⟩ := Assembler.exists_assembled (program_of_translateLines ho htranslate).1 hassemblable
  obtain ⟨cpu, hload, hruns⟩ :=
    translated_unit_runs_as_machine _ _ ho rfl lines out t htranslate true words s hassemble
  obtain ⟨n, final, hn, -, -, hrun, -, hagrees⟩ := hruns (Memory.zero.write 0 256) cpu.a cpu.d
  have hcommands : commands lines = [.push .static 4, .push .constant 7, .arithmetic .lt, .pop .static 9] := by
    decide +kernel
  have hmachine : Translator.unitMachine {} (commands lines) = ⟨3, 4, [4, 9]⟩ := by decide +kernel
  rw [hmachine, hcommands] at hagrees
  have hcells : ∀ m, cell? ⟨3, 4, [4, 9]⟩ m .static 4 = some 16 ∧ cell? ⟨3, 4, [4, 9]⟩ m .static 9 = some 17 ∧
      cell? ⟨3, 4, [4, 9]⟩ m .constant 7 = none := fun _ => ⟨rfl, rfl, rfl⟩
  have hmemory := hagrees (by
    simp [RunsClear, Clear, step, value, hcells, Memory.sp, Memory.read_write, Operation.meaning, isScratch, Word.address])
  refine ⟨out, t, htranslate, words, s, hassemble, cpu, hload, n, final, hn, hrun _ (Nat.le_refl _), ?_, ?_, ?_⟩
  · rw [hmemory.sp]
    simp [StackMachine.run, step, hcells, Memory.sp, Memory.read_write, Operation.meaning]
  · rw [hmemory 16 rfl]
    simp [StackMachine.run, step, hcells, Memory.sp, Memory.read_write, Operation.meaning, Word.address]
  · rw [hmemory 17 rfl]
    simp [StackMachine.run, step, value, hcells, Memory.sp, Memory.read_write, Operation.meaning, Word.address, truth,
      Word.signed]

end HackToolchain
