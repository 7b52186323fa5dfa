import HackToolchain.Proofs.Halting
import HackToolchain.Proofs.Verdict
import Mathlib
/-!
The loop at the end of a unit. It takes two words behind the code of the commands, and its label,
which nothing else uses, is the address of the first of them; so without the loop the unit has the
same words up to there. A processor that has passed the commands goes round in these two words for
ever and changes nothing but A and its program counter.
-/

namespace HackToolchain

open Program Translator Instruction

/-! ## A loop behind a program -/

namespace Program

variable {p : Program} {unit : String} {strict : Bool}

theorem isNumeral_loopLabel (unit : String) : Text.isNumeral (loopLabel unit).toList = false :=
  Text.isNumeral_eq_false_of_mem (c := '$') (by simp [loopLabel]) rfl

theorem fresh_concat_of_not_mem {name : String} (h : name ∉ p.filterMap symbol?) (known : List String) :
    fresh (known ++ [name]) p = fresh known p := by
  rw [fresh, fresh]
  refine congrArg _ (List.filter_congr fun s hs => ?_)
  have hne : s ≠ name := by
    rintro rfl
    exact h hs
  simp [hne]

theorem labels_loop (p : Program) (unit : String) :
    labels (p ++ loopCode unit) = p.labels ++ [(loopLabel unit, (p.size : Int))] := by
  rw [labels, labelsFrom_append, Nat.zero_add]
  rfl

theorem mem_labels_loop (p : Program) (unit : String) :
    (loopLabel unit, (p.size : Int)) ∈ labels (p ++ loopCode unit) := by
  rw [labels_loop]
  exact List.mem_append_right _ (List.mem_singleton.2 rfl)

theorem size_lt_of_loop (hp : Assemblable strict (p ++ loopCode unit)) : p.size < 32768 := by
  have hle : (p.size : Int) ≤ 32767 := hp.labels_le _ (mem_labels_loop p unit)
  omega

/-- The label of the loop stands for the size of the program before it. -/
theorem binding?_loopLabel (hp : Assemblable strict (p ++ loopCode unit)) :
    binding? (loopLabel unit) (symbols (p ++ loopCode unit)) = some (p.size : Int) := by
  refine binding?_of_mem (nodup_symbols hp.toResolvable) ?_
  rw [symbols]
  exact List.mem_append_left _ (List.mem_append_right _ (mem_labels_loop p unit))

theorem unbound_loop (h : loopLabel unit ∉ p.filterMap symbol?) : unbound (p ++ loopCode unit) = p.unbound := by
  have hsymbol : (load (loopLabel unit)).symbol? = some (loopLabel unit) := by
    rw [load, symbol?, isNumeral_loopLabel]
    rfl
  have hknown : ∀ known, loopLabel unit ∈ known → fresh known (loopCode unit) = [] := by
    intro known hmem
    rw [loopCode, fresh_cons_none rfl, fresh_cons_known hsymbol hmem, fresh_cons_none rfl]
    rfl
  rw [unbound, unbound, labels_loop, List.map_append, List.map_singleton, ← List.append_assoc, fresh_append,
    fresh_concat_of_not_mem h, hknown _ (by simp), List.append_nil]

theorem symbols_loop (h : loopLabel unit ∉ p.filterMap symbol?) : symbols (p ++ loopCode unit) =
    Platform.predefinedSymbols ++ p.labels ++ [(loopLabel unit, (p.size : Int))] ++ numbered 16 p.unbound := by
  rw [symbols, unbound_loop h, labels_loop, ← List.append_assoc]

/-- The code before the loop means what it means without it. -/
theorem wordIn?_loop (h : loopLabel unit ∉ p.filterMap symbol?) {i : Instruction} (hi : i ∈ p) :
    i.wordIn? (symbols (p ++ loopCode unit)) = i.wordIn? p.symbols := by
  cases i with
  | address symbol =>
    have haddress : addressIn (symbols (p ++ loopCode unit)) symbol = addressIn p.symbols symbol := by
      rw [addressIn, addressIn]
      split
      · rfl
      next hnum =>
        have hne : loopLabel unit ≠ symbol := by
          rintro rfl
          exact h (List.mem_filterMap.2 ⟨_, hi, by rw [symbol?, if_neg hnum]⟩)
        rw [symbols_loop h, symbols]
        simp [binding?_append, binding?, hne]
    rw [wordIn?, wordIn?, haddress]
  | label | compute | unrecognized => rfl

/-- A program that is assembled with a loop is assembled without it. -/
theorem Assemblable.of_loop (h : loopLabel unit ∉ p.filterMap symbol?)
    (hp : Assemblable strict (p ++ loopCode unit)) : p.Assemblable strict := by
  have hlabels : ∀ b ∈ p.labels, b ∈ labels (p ++ loopCode unit) := by
    rw [labels_loop]
    exact fun b hb => List.mem_append_left _ hb
  refine ⟨⟨?_, ?_, ?_, fun b hb => hp.labels_le b (hlabels b hb)⟩, ?_,
    fun i hi => hp.encodable i (List.mem_append_left _ hi)⟩
  · have hdistinct := hp.labels_distinct
    rw [labels_loop, List.map_append] at hdistinct
    exact (List.nodup_append.1 hdistinct).1
  · exact fun s hs => hp.labels_new s (List.map_subset _ hlabels hs)
  · have hsize := hp.size_le
    rw [size_append] at hsize
    omega
  · exact unbound_loop h ▸ hp.unbound_le

/-- The loop: it loads its own address and jumps there. -/
def loopWords (e : Nat) : List Word :=
  [Word.ofInt e, computeWord Computation.zero.code .none Jump.always.code]

theorem words_loop (h : loopLabel unit ∉ p.filterMap symbol?) (hp : Assemblable strict (p ++ loopCode unit)) :
    words (p ++ loopCode unit) = p.words ++ loopWords p.size := by
  have hloop : (loopCode unit).filterMap (wordIn? (symbols (p ++ loopCode unit))) = loopWords p.size := by
    have haddress : addressIn (symbols (p ++ loopCode unit)) (loopLabel unit) = p.size := by
      rw [addressIn, isNumeral_loopLabel, binding?_loopLabel hp]
      rfl
    rw [loopWords, ← haddress]
    rfl
  rw [words, List.filterMap_append, hloop, words]
  exact congrArg (· ++ _) (List.filterMap_congr fun i hi => wordIn?_loop h hi)

end Program

/-! ## Going round -/

namespace Cpu

/-- A climb is the same climb in a longer program. -/
theorem Climbs.extend {n : Nat} {cpu final : Cpu} (h : Climbs n cpu final) (more : Array Word) :
    Climbs n { cpu with rom := cpu.rom ++ more } { final with rom := final.rom ++ more } := by
  induction h with
  | refl cpu => exact .refl _
  | @step n cpu final w hw hlt _ ih =>
    have hexecute : Cpu.execute w { cpu with rom := cpu.rom ++ more } =
        { cpu.execute w with rom := (cpu.execute w).rom ++ more } := by
      obtain ⟨rom, ram, a, d, pc⟩ := cpu
      cases hmsb : w.msb <;> simp [execute, hmsb]
    have hcurrent : Cpu.current? { cpu with rom := cpu.rom ++ more } = some w := by
      have hbound : cpu.pc < cpu.rom.size := (Array.getElem?_eq_some_iff.1 hw).1
      show (cpu.rom ++ more)[cpu.pc]? = some w
      rw [Array.getElem?_append_left hbound]
      exact hw
    refine .step hcurrent ?_ ?_
    · rw [hexecute]
      exact hlt
    · rw [hexecute]
      exact ih

/-- In the loop at `e`: before loading the address, or before jumping to it. -/
structure Spins (rom : Array Word) (e : Nat) (m : Memory) (d : Word) (cpu : Cpu) : Prop where
  rom : cpu.rom = rom
  ram : cpu.ram = m
  d : cpu.d = d
  pc : cpu.pc = e ∨ cpu.pc = e + 1 ∧ cpu.a = Word.ofInt e

variable {words : List Word} {e : Nat} {m : Memory} {d : Word} {cpu : Cpu}

/-- One step stays in the loop. -/
theorem Spins.step (hwords : words.length = e) (he : e < 32768)
    (h : Spins (words ++ loopWords e).toArray e m d cpu) :
    ∃ w, cpu.current? = some w ∧ Spins (words ++ loopWords e).toArray e m d (cpu.execute w) := by
  have hle : (0 : Int) ≤ e := Int.natCast_nonneg e
  have hlt : (e : Int) < 32768 := by omega
  rcases h.pc with hpc | ⟨hpc, ha⟩
  · have hcurrent : cpu.current? = some (Word.ofInt e) := by
      rw [current?, h.rom, hpc, List.getElem?_toArray, ← hwords]
      simp [loopWords]
    refine ⟨_, hcurrent, ?_⟩
    rw [execute_address (Word.msb_ofInt hle hlt)]
    exact ⟨h.rom, h.ram, h.d, .inr ⟨congrArg (· + 1) hpc, rfl⟩⟩
  · have hcurrent : cpu.current? = some (computeWord Computation.zero.code .none Jump.always.code) := by
      rw [current?, h.rom, hpc, List.getElem?_toArray, ← hwords]
      simp [loopWords]
    refine ⟨_, hcurrent, ?_⟩
    rw [execute_computeWord]
    refine ⟨h.rom, h.ram, h.d, .inl ?_⟩
    show cpu.a.address.toNat = e
    rw [ha, Word.address_ofInt, BitVec.toNat_ofInt]
    omega

/-- Every number of steps stays in the loop. -/
theorem Spins.runFrom (hwords : words.length = e) (he : e < 32768)
    (h : Spins (words ++ loopWords e).toArray e m d cpu) (count k : Nat) :
    ∃ now, Cpu.runFrom (fun _ => false) count k cpu = (count + k, now) ∧
      Spins (words ++ loopWords e).toArray e m d now := by
  induction k generalizing cpu count with
  | zero => exact ⟨cpu, rfl, h⟩
  | succ k ih =>
    obtain ⟨w, hw, hnext⟩ := h.step hwords he
    obtain ⟨now, hrun, hnow⟩ := ih hnext (count + 1)
    refine ⟨now, ?_, hnow⟩
    rw [Cpu.runFrom, hw, ← Nat.add_assoc, Nat.add_right_comm]
    exact hrun

theorem Spins.halted (hwords : words.length = e) (h : Spins (words ++ loopWords e).toArray e m d cpu) :
    cpu.halted = false := by
  have hsize : cpu.rom.size = e + 2 := by
    rw [h.rom, ← hwords]
    simp [loopWords]
  have hpc := h.pc
  rw [Cpu.halted, hsize, decide_eq_false_iff_not]
  omega

end Cpu

/-! ## Units with a loop -/

section Unit

variable {unit : String} {options : Options}

/-- Whether there is a loop makes no difference to the code of the commands. -/
theorem codeFrom_withoutLoop (unit : String) (options : Options) (k : Nat) (cs : List Command) :
    codeFrom unit { options with endLoop := false } k cs = codeFrom unit options k cs := by
  have hcode : ∀ (k : Nat) (c : Command), c.code unit { options with endLoop := false } k = c.code unit options k := by
    intro k c
    cases c with
    | push segment offset => cases segment <;> rfl
    | pop segment offset => cases segment <;> rfl
    | arithmetic operation => cases operation <;> rfl
    | unsupported | unrecognized => rfl
  induction cs generalizing k with
  | nil => rfl
  | cons c cs ih => rw [codeFrom, codeFrom, hcode, ih]

theorem unitCode_withLoop (hloop : options.endLoop = true) (unit : String) (cs : List Command) :
    unitCode unit options cs = unitCode unit { options with endLoop := false } cs ++ loopCode unit := by
  rw [unitCode, unitCode, codeFrom_withoutLoop, hloop]
  simp

theorem symbol?_load_ne {s s' : String} (h : s ≠ s') : (load s).symbol? ≠ some s' := by
  rw [load, symbol?]
  split
  · exact (Option.some_ne_none s').symm
  · simpa using h

theorem decimal_ne_loopLabel (n : Int) (unit : String) : Text.decimal n ≠ loopLabel unit := by
  intro h
  have hmem : '$' ∈ (Text.decimal n).toList := by
    rw [h]
    simp [loopLabel]
  have hdigits : ∀ k : Nat, '$' ∉ k.repr.toList := fun k hk => by simpa using Text.isDigit_of_mem_repr hk
  cases n with
  | ofNat k => exact hdigits k hmem
  | negSucc k =>
    have htext : (Text.decimal (.negSucc k)).toList = '-' :: (k + 1).repr.toList := by simp [Text.decimal]
    rw [htext] at hmem
    exact hdigits (k + 1) (List.mem_of_ne_of_mem (by decide) hmem)

theorem operand_ne_loopLabel {segment : Segment} {offset : Nat} :
    ∀ s ∈ (access unit options segment offset).operands offset, s ≠ loopLabel unit := by
  have hrepr : offset.repr ≠ loopLabel unit := decimal_ne_loopLabel offset unit
  have hregister : ∀ register ∈ predefinedNames, register ≠ loopLabel unit := by
    rintro _ hr rfl
    exact not_predefined_of_mem (.inr rfl) (by simp [loopLabel]) hr
  cases segment with
  | constant => exact List.forall_mem_singleton.2 hrepr
  | argument | «local» | this | that =>
    exact List.forall_mem_cons.2 ⟨hrepr, List.forall_mem_singleton.2 (hregister _ (by decide))⟩
  | static => exact List.forall_mem_singleton.2 (staticName_ne (getLast?_loopLabel unit) rfl offset)
  | pointer | temp => exact List.forall_mem_singleton.2 (decimal_ne_loopLabel _ unit)

theorem operands_ne_loopLabel {c : Command} : ∀ s ∈ c.operands unit options, s ≠ loopLabel unit := by
  cases c with
  | push segment offset => exact operand_ne_loopLabel
  | pop segment offset =>
    by_cases hs : segment = .constant
    · subst hs
      exact List.forall_mem_nil _
    · rw [Command.operands_pop hs]
      exact operand_ne_loopLabel
  | arithmetic | unsupported | unrecognized => exact List.forall_mem_nil _

/-- Only the loop uses its own label. -/
theorem loopLabel_not_mem (unit : String) (options : Options) (cs : List Command) :
    loopLabel unit ∉ (unitCode unit { options with endLoop := false } cs).filterMap symbol? := by
  have hfixed : ∀ i ∈ fixedCode, i.symbol? ≠ some (loopLabel unit) := by
    have hknown : ∀ i ∈ fixedCode, ∀ s ∈ i.symbol?, s ∈ predefinedNames := by decide
    intro i hi hs
    exact not_predefined_of_mem (.inr rfl) (by simp [loopLabel]) (hknown i hi _ hs)
  intro hmem
  obtain ⟨i, hi, hs⟩ := List.mem_filterMap.1 hmem
  have hoperands : ∀ c ∈ cs, ∀ s ∈ c.operands unit { options with endLoop := false },
      (load s).symbol? ≠ some (loopLabel unit) := fun c _ s hs => symbol?_load_ne (operands_ne_loopLabel s hs)
  refine (forall_mem_unitCode hfixed).2 ⟨hoperands, fun s hs => ?_⟩ i hi hs
  rw [labelNames_unitCode] at hs
  obtain ⟨j, -, hj⟩ := mem_labelNames_codeFrom (by simpa using hs)
  refine ⟨symbol?_load_ne ?_, (Option.some_ne_none _).symm⟩
  rcases hj with rfl | rfl
  · exact (loopLabel_ne_startLabel unit _ j).symm
  · exact (loopLabel_ne_endLabel unit _ j).symm

/-- The unit is translated without its loop as well, and the code before the loop is accepted again. -/
theorem exists_withoutLoop {name : String} {lines : List Line} {out : List String} {t : Translator}
    (h : translateLines name options lines = .ok out t) (hloop : options.endLoop = true)
    (hwf : WellFormed (out.map .raw)) :
    ∃ out' t', translateLines name { options with endLoop := false } lines = .ok out' t' ∧ WellFormed (out'.map .raw) ∧
      ofLines (out'.map .raw) = unitCode (start name options).name { options with endLoop := false } (commands lines) := by
  have hverdict : SameVerdict Akin (translateLines name options lines)
      (translateLines name { options with endLoop := false } lines) := by
    refine sameVerdict_translateLines name name ?_ ?_ ?_ lines
    all_goals rfl
  rw [h] at hverdict
  generalize hplain : translateLines name { options with endLoop := false } lines = r at hverdict
  cases hverdict with
  | @ok _ out' _ t' _ =>
    refine ⟨out', t', rfl, (spells_of_translateLines hplain).1.read fun i hi => ?_⟩
    refine legible_of_wellFormed h hwf i ?_
    rw [unitCode_withLoop hloop]
    exact List.mem_append_left _ hi

end Unit

namespace Program

/-- From where the commands have been passed, the processor stays in the loop for ever. -/
theorem spins_of_climbs {q : Program} {strict : Bool} (hq : q.Assemblable strict) (hsize : q.size < 32768) {n : Nat}
    {r r' : Registers} (hn : Cpu.Climbs n (r.cpu q.words.toArray 0) (r'.cpu q.words.toArray q.size)) (k : Nat) :
    ∃ now, (r.cpu (q.words ++ loopWords q.size).toArray 0).run (fun _ => false) (n + k) = (n + k, now) ∧
      now.halted = false ∧ (k = 0 → now.pc = q.size) ∧ (now.pc = q.size ∨ now.pc = q.size + 1) ∧
      now.ram = r'.ram ∧ now.d = r'.d := by
  have hlength := length_words hq
  have hclimbs : Cpu.Climbs n (r.cpu (q.words ++ loopWords q.size).toArray 0)
      (r'.cpu (q.words ++ loopWords q.size).toArray q.size) := by
    simpa [Registers.cpu] using hn.extend (loopWords q.size).toArray
  have hspins : Cpu.Spins (q.words ++ loopWords q.size).toArray q.size r'.ram r'.d
      (r'.cpu (q.words ++ loopWords q.size).toArray q.size) := ⟨rfl, rfl, rfl, .inl rfl⟩
  obtain ⟨now, hrun, hnow⟩ := hspins.runFrom hlength hsize (0 + n) k
  refine ⟨now, ?_, hnow.halted hlength, ?_, hnow.pc.imp_right And.left, hnow.ram, hnow.d⟩
  · rw [Cpu.run, hclimbs.runFrom_eq, hrun, Nat.zero_add]
  · rintro rfl
    cases hrun
    rfl

end Program

/-- **The loop at the end of a unit changes nothing.** Whatever the name and the options of a unit
that ends with a loop, if its assembly is accepted then the loop takes the last two words, and its
label is the address `e` of the first of them. Without the loop the unit is translated and assembled
into the words before `e`. From any memory and any registers the processor gets to `e` within `e`
steps, with the memory and the D register with which it halts in the program without the loop, and
after any number of further steps it has not halted, is at `e` or behind it, and has changed neither. -/
theorem end_loop_spins (name : String) (options : Options) (hloop : options.endLoop = true) (lines : List Line)
    (out : List String) (t : Translator) (htranslate : translateLines name options lines = .ok out t) (strict : Bool)
    (words : List Word) (s : Assembler) (hassemble : assembleLines strict (out.map .raw) = .ok words s) :
    ∃ e : Nat, words.length = e + 2 ∧
      s.symbols.get? (String.ofList (sanitize name.toList) ++ "$END") = some (e : Int) ∧
    ∃ out' t' s', translateLines name { options with endLoop := false } lines = .ok out' t' ∧
      assembleLines strict (out'.map .raw) = .ok (words.take e) s' ∧
    ∃ cpu plain, romWords (words.map fun w => .raw (bits w)) >>= Cpu.load = .ok cpu ∧ cpu.pc = 0 ∧
      romWords ((words.take e).map fun w => .raw (bits w)) >>= Cpu.load = .ok plain ∧ plain.pc = 0 ∧
      ∀ (ram : Memory) (a d : Word), ∃ n final, n ≤ e ∧ final.halted = true ∧
        (∀ cycles, n ≤ cycles → { plain with ram, a, d }.run (fun _ => false) cycles = (n, final)) ∧
        ∀ k, ∃ now, { cpu with ram, a, d }.run (fun _ => false) (n + k) = (n + k, now) ∧ now.halted = false ∧
          (k = 0 → now.pc = e) ∧ (now.pc = e ∨ now.pc = e + 1) ∧ now.ram = final.ram ∧ now.d = final.d := by
  obtain ⟨⟨hwf, hassemblable⟩, hsymbols, hwords, -⟩ := Assembler.assembled hassemble
  rw [program_of_wellFormed htranslate hwf, unitCode_withLoop hloop] at hassemblable hsymbols hwords
  obtain ⟨out', t', htranslate', hwf', hprogram'⟩ := exists_withoutLoop htranslate hloop hwf
  have hunused := loopLabel_not_mem (start name options).name options (commands lines)
  have hpasses : Passes (unitCode (start name options).name { options with endLoop := false } (commands lines)) 0 _ :=
    passes_unitCode rfl (.of_loop hunused hassemblable)
  obtain ⟨q, hq⟩ : ∃ q : Program,
      q = unitCode (start name options).name { options with endLoop := false } (commands lines) := ⟨_, rfl⟩
  rw [← hq] at hassemblable hsymbols hwords hprogram' hunused hpasses
  have hplain : q.Assemblable strict := .of_loop hunused hassemblable
  rw [words_loop hunused hassemblable] at hwords
  have htake : words.take q.size = q.words := by
    rw [hwords, ← length_words hplain, List.take_left]
  obtain ⟨words', s', hassemble'⟩ : ∃ words' s', assembleLines strict (out'.map .raw) = .ok words' s' :=
    Assembler.exists_assembled hwf' (hprogram' ▸ hplain)
  have hwords' : words' = words.take q.size := by
    rw [(Assembler.assembled hassemble').2.2.1, hprogram', htake]
  refine ⟨q.size, ?_, ?_, out', t', s', htranslate', hwords' ▸ hassemble', { rom := words.toArray },
    { rom := q.words.toArray }, ?_, rfl, ?_, rfl, fun ram a d => ?_⟩
  · rw [hwords, List.length_append, length_words hplain]
    rfl
  · rw [SymbolTable.get?_eq, hsymbols]
    exact binding?_loopLabel hassemblable
  · rw [romWords_bits]
    exact Cpu.load_of_length_le (length_le_of_assembleLines hassemble)
  · rw [htake, romWords_bits]
    exact load_words hplain
  · obtain ⟨n, r', hn⟩ := hpasses ⟨ram, a, d⟩
    have hle : 0 + n ≤ q.size := hn.le_pc
    obtain ⟨-, hhalted, -⟩ := halts_of_climbs hplain hn
    refine ⟨n, _, by omega, hhalted, fun cycles hcycles => hn.run_eq hhalted hcycles, ?_⟩
    rw [hwords]
    exact spins_of_climbs hplain (size_lt_of_loop hassemblable) hn

/-- A comparison of a static cell, run on a stack pointer that points nowhere and then three steps
round the loop. -/
theorem end_loop_spins_after_comparison :
    let options : Options := { comments := true, endLoop := true, labelStart := "", tempBase := 6 }
    let lines : List Line := [.raw "push constant 7", .raw "push static 3", .raw "lt", .raw "pop temp 1"]
    ∃ out t words s, translateLines "Main 2" options lines = .ok out t ∧
      assembleLines true (out.map .raw) = .ok words s ∧
    ∃ e : Nat, words.length = e + 2 ∧ s.symbols.get? "Main_2$END" = some (e : Int) ∧
    ∃ cpu, romWords (words.map fun w => .raw (bits w)) >>= Cpu.load = .ok cpu ∧
    ∃ n now, n ≤ e ∧
      { cpu with ram := Memory.zero.write 0 (-1), d := 5 }.run (fun _ => false) (n + 3) = (n + 3, now) ∧
      now.halted = false ∧ (now.pc = e ∨ now.pc = e + 1) := by
  intro options lines
  obtain ⟨out, t, htranslate⟩ := exists_ok_of_succeeded (r := translateLines "Main 2" options lines) (by decide +kernel)
  obtain ⟨hwf, hprogram⟩ := (spells_of_translateLines htranslate).1.read (by decide +kernel)
  have hassemblable : (ofLines (out.map .raw)).Assemblable true := by
    rw [hprogram]
    decide +kernel
  obtain ⟨words, s, hassemble⟩ := Assembler.exists_assembled hwf hassemblable
  obtain ⟨e, hlength, hlabel, _, _, _, -, -, cpu, plain, hload, -, -, -, hspins⟩ :=
    end_loop_spins "Main 2" options rfl lines out t htranslate true words s hassemble
  obtain ⟨n, final, hn, -, -, hrun⟩ := hspins (Memory.zero.write 0 (-1)) cpu.a 5
  obtain ⟨now, hnow, hhalted, -, hpc, -, -⟩ := hrun 3
  exact ⟨out, t, words, s, htranslate, hassemble, e, hlength, hlabel, cpu, hload, n, now, hn, hnow, hhalted, hpc⟩

end HackToolchain
