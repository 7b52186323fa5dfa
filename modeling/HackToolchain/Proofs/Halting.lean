import HackToolchain.Proofs.Compilation
import HackToolchain.Proofs.InstructionGrammar
import Mathlib
/-!
Translated units always halt. Of the lines of a unit only those that the assembler does not refuse
matter, and these are read back as they were written, so the program is known whatever the options
are. Each of its commands is passed: the processor climbs from the first instruction of the code to
what follows it, whatever memory and registers hold. A unit without a loop is passed as a whole.
-/

namespace HackToolchain

open Program Translator

/-! ## Accepted lines are read back -/

namespace Instruction

/-- The instruction, written on a line, is not refused. -/
def Readable (i : Instruction) : Prop :=
  ∀ e, (Line.raw i.render).reading? ≠ some (.error e)

theorem Legible.readable {i : Instruction} (h : i.Legible) : i.Readable := by
  intro e he
  rw [show (Line.raw i.render).reading? = _ from h] at he
  cases he

theorem Readable.parse_ne_error {i : Instruction} {c : Char} {cs : List Char} (h : i.Readable)
    (htext : i.render.toList = c :: cs) (hplain : isPlain c = true) (reason : String) :
    parse (stripComment i.render) ≠ .error reason := by
  intro hparse
  have hne : (Line.raw i.render).content ≠ "" := by
    intro hempty
    have := toList_stripComment htext hplain
    rw [show stripComment i.render = "" from hempty] at this
    cases this
  refine h (Cause.at (.malformedInstruction (stripComment i.render) reason) none) ?_
  rw [Line.reading?, if_neg hne]
  show some (classify (stripComment i.render) none) = _
  rw [classify, hparse]

/-- The characters of an address that is not refused can stand in symbols. -/
theorem Readable.isSymbolChar {symbol : String} {c : Char} (h : (address symbol).Readable)
    (hc : c ∈ (beforeComment symbol.toList).rdropWhile Text.isBlank) (hb : Text.isBlank c = false) :
    isSymbolChar c = true := by
  have hrender : (address symbol).render.toList = '@' :: symbol.toList := by simp [render]
  have hparse := h.parse_ne_error hrender rfl
  rw [parse_address (toList_stripComment hrender rfl)] at hparse
  have hmem := Text.mem_trim hc hb
  split at hparse
  · exact (hparse _ rfl).elim
  split at hparse
  next hsymbol =>
    rw [Bool.or_eq_true] at hsymbol
    rcases hsymbol with hsymbol | hsymbol
    · rw [Text.isNumeral, Bool.and_eq_true, List.all_eq_true] at hsymbol
      exact isSymbolChar_of_isDigit (hsymbol.2 c hmem)
    · exact isSymbolChar_of_isSymbolName hsymbol c hmem
  · exact (hparse _ rfl).elim

/-- A label whose definition and whose use are not refused has a name. -/
theorem isSymbolName_of_readable {name : String} (hload : (address name).Readable) (hlabel : (label name).Readable) :
    isSymbolName name.toList = true := by
  have hrender : (label name).render.toList = '(' :: (name.toList ++ [')']) := by simp [render]
  have hparse := hlabel.parse_ne_error hrender rfl
  rw [parse_label (toList_stripComment hrender rfl)] at hparse
  split at hparse
  next hname =>
    rw [Bool.and_eq_true, decide_eq_true_eq] at hname
    rcases beforeComment_concat (by decide : ')' ≠ '/') name.toList with hcut | hwhole
    · -- The closing parenthesis would have to stand before the comment, in the name itself.
      rw [hcut] at hname
      have hparen := hload.isSymbolChar (List.mem_of_getLast? hname.1) rfl
      cases hparen
    · rw [hwhole, List.rdropWhile_concat_neg _ _ _ (by decide), List.dropLast_concat] at hname
      exact hname.2
  · exact (hparse _ rfl).elim

end Instruction

theorem Spells.render_mem {out : List String} {code : List Instruction} (h : Spells out code) :
    ∀ i ∈ code, i.render ∈ out := by
  induction h with
  | nil => exact List.forall_mem_nil _
  | remark text _ ih => exact fun i hi => List.mem_cons_of_mem _ (ih i hi)
  | instruction i _ ih =>
    refine List.forall_mem_cons.2 ⟨List.mem_cons_self, fun j hj => List.mem_cons_of_mem _ (ih j hj)⟩

namespace Translator

open Instruction

variable {unit : String} {options : Options} {cs : List Command}

/-- A sign is no part of an address. -/
theorem nonneg_of_readable {k : Int} (h : (load (Text.decimal k)).Readable) : 0 ≤ k := by
  cases k with
  | ofNat n => exact Int.natCast_nonneg n
  | negSucc n =>
    have htext : (Text.decimal (.negSucc n)).toList = '-' :: (n + 1).repr.toList := by simp [Text.decimal]
    have hplain : ∀ c ∈ (Text.decimal (.negSucc n)).toList, isPlain c = true := by
      rw [htext]
      refine List.forall_mem_cons.2 ⟨rfl, fun c hc => ?_⟩
      exact isPlain_of_isSymbolChar (Text.isSymbolChar_of_mem_repr hc)
    have hminus : '-' ∈ (beforeComment (Text.decimal (.negSucc n)).toList).rdropWhile Text.isBlank := by
      rw [beforeComment_eq_self fun c hc => ne_slash_of_isPlain (hplain c hc), List.rdropWhile, htext]
      exact List.mem_reverse.2 (Text.mem_dropWhile (by simp) rfl)
    have := Readable.isSymbolChar h hminus rfl
    cases this

theorem legible_decimal {k : Int} (h : (load (Text.decimal k)).Readable) : (load (Text.decimal k)).Legible := by
  rw [Text.decimal_of_nonneg (nonneg_of_readable h)]
  exact legible_address (.inl (Text.isNumeral_repr _))

theorem operands_legible_of_readable (hu : isSymbolName unit.toList = true) {segment : Segment} {offset : Nat}
    (h : ∀ s ∈ (access unit options segment offset).operands offset, (load s).Readable) :
    ∀ s ∈ (access unit options segment offset).operands offset, (load s).Legible := by
  have hrepr : ∀ n : Nat, (load n.repr).Legible := fun n => legible_address (.inl (Text.isNumeral_repr n))
  cases segment with
  | argument | «local» | this | that =>
    exact List.forall_mem_cons.2 ⟨hrepr _, List.forall_mem_singleton.2 (by decide)⟩
  | constant => exact List.forall_mem_singleton.2 (hrepr _)
  | static => exact List.forall_mem_singleton.2 (legible_address (.inr (isSymbolName_staticName hu _)))
  | pointer | temp => exact List.forall_mem_singleton.2 (legible_decimal (h _ (List.mem_singleton.2 rfl)))

end Translator

namespace Command

open Translator Instruction

theorem operands_legible_of_readable {unit : String} {options : Options} {c : Command}
    (hu : isSymbolName unit.toList = true) (h : ∀ s ∈ c.operands unit options, (load s).Readable) :
    ∀ s ∈ c.operands unit options, (load s).Legible := by
  cases c with
  | push segment offset => exact Translator.operands_legible_of_readable hu h
  | pop segment offset =>
    by_cases hs : segment = .constant
    · subst hs
      exact List.forall_mem_nil _
    · rw [operands_pop hs] at h ⊢
      exact Translator.operands_legible_of_readable hu h
  | arithmetic | unsupported | unrecognized => exact List.forall_mem_nil _

end Command

namespace Translator

open Instruction

variable {unit : String} {options : Options} {cs : List Command}

/-- Code of which no line is refused is read back, whatever the options are. -/
theorem unitCode_legible_of_readable (hu : isSymbolName unit.toList = true)
    (h : ∀ i ∈ unitCode unit options cs, i.Readable) : ∀ i ∈ unitCode unit options cs, i.Legible := by
  obtain ⟨hoperands, hlabels⟩ := (forall_mem_unitCode fun i hi => (fixedCode_legible i hi).readable).1 h
  refine (forall_mem_unitCode fixedCode_legible).2 ⟨fun c hc => ?_, fun s hs => ?_⟩
  · exact Command.operands_legible_of_readable hu (hoperands c hc)
  · have hname := isSymbolName_of_readable (hlabels s hs).1 (hlabels s hs).2
    exact ⟨legible_address (.inr hname), legible_label hname⟩

end Translator

/-- Code whose lines are accepted is read back. -/
theorem legible_of_wellFormed {name : String} {options : Options} {lines : List Line} {out : List String}
    {t : Translator} (h : translateLines name options lines = .ok out t) (hwf : WellFormed (out.map .raw)) :
    ∀ i ∈ unitCode (start name options).name options (commands lines), i.Legible := by
  refine unitCode_legible_of_readable (isSymbolName_start name options) fun i hi => ?_
  exact hwf _ (List.mem_map_of_mem ((spells_of_translateLines h).1.render_mem i hi))

/-- The program on lines that are written and accepted is the code of the commands. -/
theorem program_of_wellFormed {name : String} {options : Options} {lines : List Line} {out : List String}
    {t : Translator} (h : translateLines name options lines = .ok out t) (hwf : WellFormed (out.map .raw)) :
    ofLines (out.map .raw) = unitCode (start name options).name options (commands lines) :=
  ((spells_of_translateLines h).1.read (legible_of_wellFormed h hwf)).2

/-! ## Climbing to the end -/

namespace Cpu

/-- On the way of a climb to where the processor halts, every step raises the program counter. -/
theorem Climbs.lt_of_step {n : Nat} {cpu final cpu' : Cpu} (h : Climbs n cpu final) (hhalt : final.halted = true)
    {count k : Nat} (hstep : (runFrom (fun _ => false) count k cpu).2.step = .ok cpu') :
    (runFrom (fun _ => false) count k cpu).2.pc < cpu'.pc := by
  induction h generalizing count k with
  | refl final =>
    rw [runFrom_halted hhalt, Cpu.step, (current?_eq_none_iff final).2 hhalt] at hstep
    cases hstep
  | step hw hlt _ ih =>
    cases k with
    | zero =>
      rw [runFrom, step_of_current? hw] at hstep
      cases hstep
      exact hlt
    | succ k =>
      rw [runFrom, hw] at hstep ⊢
      exact ih hhalt hstep

end Cpu

namespace Program

variable {p before after : Program} {strict : Bool}

/-- From one place the processor climbs to another, whatever memory and registers hold. -/
def Passes (p : Program) (pc pc' : Nat) : Prop :=
  ∀ r : Registers, ∃ n r', Cpu.Climbs n (r.cpu p.words.toArray pc) (Registers.cpu r' p.words.toArray pc')

theorem Passes.trans {pc pc' pc'' : Nat} (h : p.Passes pc pc') (h' : p.Passes pc' pc'') : p.Passes pc pc'' := by
  intro r
  obtain ⟨n, r', hn⟩ := h r
  obtain ⟨n', r'', hn'⟩ := h' r'
  exact ⟨n + n', r'', hn.trans hn'⟩

variable {unit : String} {options : Options} {k : Nat}

/-- The code of a command is passed: it does not jump, or it is a comparison and jumps forwards. -/
theorem passes_command (h : p.Assemblable strict) {c : Command} (hp : p = before ++ c.code unit options k ++ after) :
    p.Passes (size before) (size (before ++ c.code unit options k)) := by
  intro r
  by_cases hc : c.comparisons = 0
  · exact ⟨_, _, climbs_straight h hp (Command.isStraight_of_mem_code hc) r⟩
  · cases c with
    | arithmetic operation =>
      cases hcomparison : operation.comparison? with
      | none => exact absurd (by rw [Command.comparisons, hcomparison]; rfl) hc
      | some jump =>
        have hleads : p.Leads _ r.ram _ (StackMachine.effect ⟨0, 0, []⟩ r.ram (.arithmetic operation)) :=
          leads_comparison h hcomparison hp r.ram
        obtain ⟨n, a, d, hn⟩ := hleads r.a r.d
        exact ⟨n, _, hn⟩
    | push | pop | unsupported | unrecognized => exact absurd rfl hc

theorem passes_commands (h : p.Assemblable strict) {cs : List Command}
    (hp : p = before ++ codeFrom unit options k cs ++ after) :
    p.Passes (size before) (size (before ++ codeFrom unit options k cs)) := by
  induction cs generalizing before k with
  | nil =>
    rw [codeFrom, List.append_nil]
    exact fun r => ⟨0, r, .refl _⟩
  | cons c cs ih =>
    rw [codeFrom, ← List.append_assoc] at hp ⊢
    exact (passes_command h (hp.trans (List.append_assoc _ _ _))).trans (ih hp)

/-- A unit without a loop is passed as a whole. -/
theorem passes_unitCode {cs : List Command} (hloop : options.endLoop = false)
    (h : Assemblable strict (unitCode unit options cs)) :
    Passes (unitCode unit options cs) 0 (size (unitCode unit options cs)) := by
  have hcode : unitCode unit options cs = [] ++ codeFrom unit options 0 cs ++ [] := by
    rw [unitCode, hloop]
    rfl
  have hpasses := passes_commands h hcode
  rwa [← List.append_nil ([] ++ codeFrom _ _ _ _), ← hcode] at hpasses

/-- The words of an assembled program can be loaded. -/
theorem load_words (h : p.Assemblable strict) : Cpu.load p.words = .ok { rom := p.words.toArray } :=
  Cpu.load_of_length_le (length_words_le h)

/-- A climb to the end of a program is what every long enough run does. -/
theorem halts_of_climbs (h : p.Assemblable strict) {n : Nat} {r r' : Registers}
    (hn : Cpu.Climbs n (r.cpu p.words.toArray 0) (r'.cpu p.words.toArray p.size)) :
    n ≤ p.words.length ∧ (r'.cpu p.words.toArray p.size).halted = true ∧ ∀ cycles, p.words.length ≤ cycles →
      (r.cpu p.words.toArray 0).run (fun _ => false) cycles = (n, r'.cpu p.words.toArray p.size) := by
  have hsize := length_words h
  have hle : 0 + n ≤ p.size := hn.le_pc
  have hhalted : (r'.cpu p.words.toArray p.size).halted = true := by simp [Cpu.halted, Registers.cpu, hsize]
  exact ⟨by omega, hhalted, fun cycles hcycles => hn.run_eq hhalted (by omega)⟩

/-- A program that is passed from its beginning to its end halts there. -/
theorem Passes.halts (h : p.Passes 0 p.size) (hassemblable : p.Assemblable strict) (r : Registers) :
    (∀ k cpu, ((r.cpu p.words.toArray 0).run (fun _ => false) k).2.step = .ok cpu →
      ((r.cpu p.words.toArray 0).run (fun _ => false) k).2.pc < cpu.pc) ∧
    ∃ n final, n ≤ p.words.length ∧ final.pc = p.words.length ∧ final.halted = true ∧
      ∀ cycles, p.words.length ≤ cycles → (r.cpu p.words.toArray 0).run (fun _ => false) cycles = (n, final) := by
  obtain ⟨n, r', hn⟩ := h r
  obtain ⟨hle, hhalted, hrun⟩ := halts_of_climbs hassemblable hn
  exact ⟨fun k cpu hstep => hn.lt_of_step hhalted hstep, n, _, hle, (length_words hassemblable).symm, hhalted, hrun⟩

end Program

/-- **Translated units without a loop always halt.** Whatever the name and the options of the unit,
if its assembly is accepted then the words can be loaded, and from any memory and any registers
every step raises the program counter; so the processor halts at the end of the program within as
many steps as there are words. -/
theorem translated_unit_halts (name : String) (options : Options) (hloop : options.endLoop = false)
    (lines : List Line) (out : List String) (t : Translator)
    (htranslate : translateLines name options lines = .ok out t) (strict : Bool) (words : List Word) (s : Assembler)
    (hassemble : assembleLines strict (out.map .raw) = .ok words s) :
    ∃ cpu, romWords (words.map fun w => .raw (bits w)) >>= Cpu.load = .ok cpu ∧ cpu.pc = 0 ∧
      ∀ (ram : Memory) (a d : Word),
        (∀ k cpu', ({ cpu with ram, a, d }.run (fun _ => false) k).2.step = .ok cpu' →
          ({ cpu with ram, a, d }.run (fun _ => false) k).2.pc < cpu'.pc) ∧
        ∃ n final, n ≤ words.length ∧ final.pc = words.length ∧ final.halted = true ∧
          ∀ cycles, words.length ≤ cycles → { cpu with ram, a, d }.run (fun _ => false) cycles = (n, final) := by
  obtain ⟨⟨hwf, hassemblable⟩, -, hwords, -⟩ := Assembler.assembled hassemble
  have hprogram := program_of_wellFormed htranslate hwf
  rw [hprogram] at hassemblable hwords
  refine ⟨{ rom := words.toArray }, ?_, rfl, fun ram a d => ?_⟩
  · rw [romWords_bits, hwords]
    exact Program.load_words hassemblable
  · rw [hwords]
    exact (passes_unitCode hloop hassemblable).halts hassemblable ⟨ram, a, d⟩

/-- A comparison on a stack pointer that points nowhere, with cells counted from below zero and
labels that begin with a point. -/
theorem translated_corrupt_stack_halts :
    let options : Options := { comments := true, labelStart := "", tempBase := -3 }
    let lines : List Line := [.raw "push temp 5", .raw "push local 32767 // no such cell", .raw "gt"]
    ∃ out t, translateLines "" options lines = .ok out t ∧
      ∃ words s, assembleLines true (out.map .raw) = .ok words s ∧
      ∃ cpu, romWords (words.map fun w => .raw (bits w)) >>= Cpu.load = .ok cpu ∧
      ∃ n final, n ≤ words.length ∧ final.pc = words.length ∧ final.halted = true ∧
        { cpu with ram := Memory.zero.write 0 (-1), d := 5 }.run (fun _ => false) words.length = (n, final) := by
  intro options lines
  obtain ⟨out, t, htranslate⟩ := exists_ok_of_succeeded (r := translateLines "" options lines) (by decide +kernel)
  obtain ⟨hwf, hprogram⟩ := (spells_of_translateLines htranslate).1.read (by decide +kernel)
  have hassemblable : (ofLines (out.map .raw)).Assemblable true := by
    rw [hprogram]
    decide +kernel
  obtain ⟨words, s, hassemble⟩ := Assembler.exists_assembled hwf hassemblable
  obtain ⟨cpu, hload, -, hhalts⟩ :=
    translated_unit_halts "" options rfl lines out t htranslate true words s hassemble
  obtain ⟨-, n, final, hn, hpc, hhalted, hrun⟩ := hhalts (Memory.zero.write 0 (-1)) cpu.a 5
  exact ⟨out, t, htranslate, words, s, hassemble, cpu, hload, n, final, hn, hpc, hhalted, hrun _ (Nat.le_refl _)⟩

end HackToolchain
