import HackToolchain.Proofs.MintedSymbols
import Mathlib
/-!
What the code of a unit is made of: a few fixed instructions, the operands of its commands and the
labels of its comparisons and of its loop. The labels are distinct and new; the symbols that are
left for the assembler to allocate are the static cells, in the order of their first use, and each
use of one takes seven instructions.
-/

namespace HackToolchain

open Program

/-! ## The parts of a command -/

namespace Translator

/-- The instructions of code, apart from operands and labels. -/
def fixedCode : List Instruction :=
  [load "SP", load "R13", load "R14", setA "M", setA "M-1", setA "D+M", setD "A", setD "M", setD "D-M",
   setM "D", setM "M+1", setM "M-1", setM "D+M", setM "M-D", setM "D&M", setM "D|M", setM "-M", setM "!M",
   setM "0", setM "-1", jumpIf "D" "JEQ", jumpIf "D" "JLT", jumpIf "D" "JGT", jumpIf "0" "JMP"]

/-- The symbols by which a value is reached that is pushed. -/
def Access.operands (offset : Nat) : Access → List String
  | constant => [offset.repr]
  | direct symbol => [symbol]
  | based register => [offset.repr, register]

end Translator

namespace Command

open Translator Instruction

variable {unit : String} {options : Options} {k : Nat} {c : Command}

/-- The symbols that the code of a command loads to reach a cell or a constant. -/
def operands (unit : String) (options : Options) : Command → List String
  | push segment offset => (access unit options segment offset).operands offset
  | pop segment offset =>
    match access unit options segment offset with
    | .constant => []
    | a => a.operands offset
  | arithmetic _ | unsupported .. | unrecognized _ => []

/-- The labels in the code of a command. -/
def labels (options : Options) (k : Nat) (c : Command) : List String :=
  if c.comparisons = 1 then [startLabel options k, endLabel options k] else []

/-- What holds of the fixed instructions holds of the code of a command exactly if it holds of its
operands and its labels. -/
theorem forall_mem_code {P : Instruction → Prop} (hfixed : ∀ i ∈ fixedCode, P i) (unit : String)
    (options : Options) (k : Nat) (c : Command) :
    (∀ i ∈ c.code unit options k, P i) ↔
      (∀ s ∈ c.operands unit options, P (load s)) ∧ ∀ s ∈ c.labels options k, P (load s) ∧ P (.label s) := by
  simp only [fixedCode, List.forall_mem_cons] at hfixed
  cases c with
  | push segment offset =>
    simp only [code, operands, labels, comparisons]
    cases access unit options segment offset <;> simp [pushCode, pointTo, pushD, Access.operands, hfixed]
  | pop segment offset =>
    simp only [code, operands, labels, comparisons]
    cases access unit options segment offset <;> simp [popCode, pointTo, popD, Access.operands, hfixed]
  | arithmetic operation =>
    have hcomparison : ∀ jump isTrue done, P (jumpIf "D" jump) → ((∀ i ∈ comparisonCode jump isTrue done, P i) ↔
        P (load isTrue) ∧ P (load done) ∧ P (.label isTrue) ∧ P (.label done)) := by
      intro jump isTrue done hjump
      simp [comparisonCode, popD, pointToTop, hfixed, hjump]
    cases operation with
    | add | sub | and | or | neg | not =>
      simp [code, operands, labels, comparisons, operationCode, Operation.binary?, Operation.unary?,
        Operation.comparison?, popD, pointToTop, hfixed]
    | eq | lt | gt =>
      refine (hcomparison _ _ _ (by simp [hfixed])).trans ?_
      simp only [operands, labels, comparisons, Operation.comparison?, Option.isSome_some, if_true,
        List.forall_mem_cons, List.not_mem_nil, false_imp_iff, implies_true, and_true]
      tauto
  | unsupported | unrecognized => simp [code, operands, labels, comparisons]

theorem operands_pop {segment : Segment} (h : segment ≠ .constant) (unit : String) (options : Options) (offset : Nat) :
    (pop segment offset).operands unit options = (access unit options segment offset).operands offset := by
  cases segment with
  | constant => exact (h rfl).elim
  | _ => rfl

theorem mem_labels {s : String} (h : s ∈ c.labels options k) : s = startLabel options k ∨ s = endLabel options k := by
  rw [labels] at h
  split at h
  · simpa using h
  · cases h

/-! ## The labels and the symbols of a command -/

theorem labelNames_code (unit : String) (options : Options) (k : Nat) (c : Command) :
    labelNames (c.code unit options k) = c.labels options k := by
  cases c with
  | push segment offset =>
    rw [code]
    cases access unit options segment offset <;> rfl
  | pop segment offset =>
    rw [code]
    cases access unit options segment offset <;> rfl
  | arithmetic operation => cases operation <;> rfl
  | unsupported | unrecognized => rfl

/-- The static cell that a command uses, if it uses one. -/
def statics : Command → List Nat
  | push .static offset | pop .static offset => [offset]
  | _ => []

/-- An access to a static cell takes seven instructions. -/
theorem length_statics_le (unit : String) (options : Options) (k : Nat) (c : Command) :
    7 * c.statics.length ≤ size (c.code unit options k) := by
  unfold statics
  split
  · exact Nat.le_refl 7
  · exact Nat.le_refl 7
  · exact Nat.zero_le _

/-- What an instruction uses is known. -/
def UsesOnly (known : List String) (i : Instruction) : Prop :=
  ∀ s, i.symbol? = some s → s ∈ known

theorem usesOnly_numeral {s : String} (h : Text.isNumeral s.toList = true) (known : List String) :
    UsesOnly known (load s) := by
  intro t ht
  rw [load, symbol?, if_pos h] at ht
  cases ht

theorem usesOnly_of_mem {s : String} {known : List String} (h : s ∈ known) : UsesOnly known (load s) := by
  intro t ht
  rw [load, symbol?] at ht
  split at ht
  · cases ht
  · cases ht
    exact h

theorem usesOnly_fixedCode {known : List String} (hknown : ∀ name ∈ predefinedNames, name ∈ known) :
    ∀ i ∈ fixedCode, UsesOnly known i := by
  have hfixed : ∀ i ∈ fixedCode, ∀ s ∈ i.symbol?, s ∈ predefinedNames := by decide
  exact fun i hi s hs => hknown s (hfixed i hi s hs)

/-- The operands that are not static cells are numerals and predefined registers. -/
theorem usesOnly_operands {known : List String} (ho : options.Sound) (hknown : ∀ name ∈ predefinedNames, name ∈ known)
    {segment : Segment} (hs : segment ≠ .static) (offset : Nat) :
    ∀ s ∈ (access unit options segment offset).operands offset, UsesOnly known (load s) := by
  have hrepr : ∀ n : Nat, UsesOnly known (load n.repr) := fun n => usesOnly_numeral (Text.isNumeral_repr n) known
  have := ho.pointerBase
  have := ho.tempBase
  cases segment with
  | static => exact (hs rfl).elim
  | argument | «local» | this | that =>
    exact List.forall_mem_cons.2 ⟨hrepr _, List.forall_mem_singleton.2 (usesOnly_of_mem (hknown _ (by decide)))⟩
  | constant => exact List.forall_mem_singleton.2 (hrepr _)
  | pointer | temp =>
    refine List.forall_mem_singleton.2 ?_
    rw [Text.decimal_of_nonneg (by omega)]
    exact hrepr _

theorem usesOnly_code {known : List String} (ho : options.Sound) (hknown : ∀ name ∈ predefinedNames, name ∈ known)
    (hlabels : ∀ s ∈ c.labels options k, s ∈ known) (hc : c.statics = []) :
    ∀ i ∈ c.code unit options k, UsesOnly known i := by
  refine (forall_mem_code (usesOnly_fixedCode hknown) unit options k c).2 ⟨?_, fun s hs => ?_⟩
  · cases c with
    | push segment offset =>
      refine usesOnly_operands ho hknown ?_ offset
      rintro rfl
      cases hc
    | pop segment offset =>
      by_cases hs : segment = .constant
      · subst hs
        exact List.forall_mem_nil _
      · rw [operands_pop hs]
        refine usesOnly_operands ho hknown ?_ offset
        rintro rfl
        cases hc
    | arithmetic | unsupported | unrecognized => exact List.forall_mem_nil _
  · refine ⟨usesOnly_of_mem (hlabels s hs), fun t ht => ?_⟩
    cases ht

/-- Of the symbols that a command uses, only its static cell is not known already. -/
theorem unknown_symbols_code {known : List String} (ho : options.Sound) (hknown : ∀ name ∈ predefinedNames, name ∈ known)
    (hlabels : ∀ s ∈ c.labels options k, s ∈ known) (hstatic : ∀ i, staticName unit i ∉ known) :
    ((c.code unit options k).filterMap symbol?).filter (· ∉ known) = c.statics.map (staticName unit) := by
  have hcell : ∀ offset, (load (staticName unit offset)).symbol? = some (staticName unit offset) := fun offset => by
    rw [load, symbol?, Text.isNumeral_eq_false_of_mem (c := '.') (by simp [staticName]) rfl]
    rfl
  have hsp : ["SP", "SP"].filter (· ∉ known) = [] := by simp [hknown "SP" (by decide)]
  have hone : ∀ offset, [staticName unit offset].filter (· ∉ known) = [staticName unit offset] := by simp [hstatic]
  by_cases hc : c.statics = []
  · rw [hc, List.map_nil, List.filter_eq_nil_iff]
    intro s hs
    obtain ⟨i, hi, his⟩ := List.mem_filterMap.1 hs
    simpa using usesOnly_code ho hknown hlabels hc i hi s his
  · cases c with
    | push segment offset =>
      cases segment with
      | static =>
        have : List.filterMap symbol? (pushCode offset (.direct (staticName unit offset))) =
            [staticName unit offset] ++ ["SP", "SP"] := List.filterMap_cons_some (hcell offset)
        rw [code, access, this, List.filter_append, hsp, hone]
        rfl
      | _ => exact (hc rfl).elim
    | pop segment offset =>
      cases segment with
      | static =>
        have : List.filterMap symbol? (popCode offset (.direct (staticName unit offset))) =
            ["SP", "SP"] ++ [staticName unit offset] :=
          List.filterMap_append.trans (congrArg (["SP", "SP"] ++ ·) (List.filterMap_cons_some (hcell offset)))
        rw [code, access, this, List.filter_append, hsp, hone]
        rfl
      | _ => exact (hc rfl).elim
    | arithmetic | unsupported | unrecognized => exact (hc rfl).elim

end Command

/-! ## The parts of a unit -/

namespace Translator

open Instruction

variable {unit : String} {options : Options} {k : Nat} {cs : List Command}

/-- The static cells that commands use, in the order of use. -/
def statics (cs : List Command) : List Nat :=
  cs.flatMap Command.statics

theorem labelNames_codeFrom_cons (c : Command) : labelNames (codeFrom unit options k (c :: cs)) =
    c.labels options k ++ labelNames (codeFrom unit options (k + c.comparisons) cs) := by
  rw [codeFrom, labelNames, List.filterMap_append]
  exact congrArg (· ++ _) (Command.labelNames_code unit options k c)

/-- The labels are those of comparisons with numbers from `k` on. -/
theorem mem_labelNames_codeFrom {s : String} (h : s ∈ labelNames (codeFrom unit options k cs)) :
    ∃ j, k ≤ j ∧ (s = startLabel options j ∨ s = endLabel options j) := by
  induction cs generalizing k with
  | nil => cases h
  | cons c cs ih =>
    rw [labelNames_codeFrom_cons] at h
    rcases List.mem_append.1 h with h | h
    · exact ⟨k, Nat.le_refl k, Command.mem_labels h⟩
    · obtain ⟨j, hj, hs⟩ := ih h
      exact ⟨j, by omega, hs⟩

theorem nodup_labelNames_codeFrom : (labelNames (codeFrom unit options k cs)).Nodup := by
  induction cs generalizing k with
  | nil => exact .nil
  | cons c cs ih =>
    rw [labelNames_codeFrom_cons, Command.labels]
    split
    next hone =>
      -- The labels that follow have greater numbers.
      refine List.nodup_append.2 ⟨?_, ih, ?_⟩
      · simpa using startLabel_ne_endLabel options k k
      · rintro s hs _ ht rfl
        obtain ⟨j, hj, hst⟩ := mem_labelNames_codeFrom ht
        have hne : j ≠ k := by omega
        have hs : s = startLabel options k ∨ s = endLabel options k := by simpa using hs
        rcases hs with rfl | rfl <;> rcases hst with h | h
        · exact hne (comparisonLabel_injective options _ h).symm
        · exact startLabel_ne_endLabel options k j h
        · exact startLabel_ne_endLabel options j k h.symm
        · exact hne (comparisonLabel_injective options _ h).symm
    · exact ih

theorem unknown_symbols_codeFrom {known : List String} (ho : options.Sound)
    (hknown : ∀ name ∈ predefinedNames, name ∈ known)
    (hlabels : ∀ s ∈ labelNames (codeFrom unit options k cs), s ∈ known) (hstatic : ∀ i, staticName unit i ∉ known) :
    ((codeFrom unit options k cs).filterMap symbol?).filter (· ∉ known) = (statics cs).map (staticName unit) := by
  induction cs generalizing k with
  | nil => rfl
  | cons c cs ih =>
    rw [labelNames_codeFrom_cons] at hlabels
    obtain ⟨hc, hcs⟩ := List.forall_mem_append.1 hlabels
    rw [codeFrom, List.filterMap_append, List.filter_append, Command.unknown_symbols_code ho hknown hc hstatic,
      ih hcs, statics, statics, List.flatMap_cons, List.map_append]

theorem length_statics_le : 7 * (statics cs).length ≤ size (codeFrom unit options k cs) := by
  induction cs generalizing k with
  | nil => exact Nat.zero_le _
  | cons c cs ih =>
    rw [codeFrom, size_append, statics, List.flatMap_cons, List.length_append, Nat.mul_add]
    exact Nat.add_le_add (Command.length_statics_le unit options k c) ih

/-- The labels of a unit: those of its comparisons and, if it ends with a loop, that of the loop. -/
theorem labelNames_unitCode : labelNames (unitCode unit options cs) =
    labelNames (codeFrom unit options 0 cs) ++ if options.endLoop then [loopLabel unit] else [] := by
  rw [unitCode, labelNames, List.filterMap_append]
  cases options.endLoop <;> rfl

theorem mem_labelNames_unitCode {s : String} (h : s ∈ labelNames (unitCode unit options cs)) :
    s = loopLabel unit ∨ ∃ j, s = startLabel options j ∨ s = endLabel options j := by
  rw [labelNames_unitCode] at h
  rcases List.mem_append.1 h with h | h
  · obtain ⟨j, -, hs⟩ := mem_labelNames_codeFrom h
    exact .inr ⟨j, hs⟩
  · split at h
    · exact .inl (List.mem_singleton.1 h)
    · cases h

theorem nodup_labelNames_unitCode : (labelNames (unitCode unit options cs)).Nodup := by
  rw [labelNames_unitCode]
  refine List.nodup_append.2 ⟨nodup_labelNames_codeFrom, by split <;> simp, ?_⟩
  rintro s hs _ ht rfl
  obtain ⟨j, -, hj⟩ := mem_labelNames_codeFrom hs
  split at ht
  · obtain rfl := List.mem_singleton.1 ht
    rcases hj with hj | hj
    · exact loopLabel_ne_startLabel unit options j hj
    · exact loopLabel_ne_endLabel unit options j hj
  · cases ht

theorem label_not_predefined {s : String} (h : s ∈ labelNames (unitCode unit options cs)) : s ∉ predefinedNames := by
  rcases mem_labelNames_unitCode h with rfl | ⟨j, rfl | rfl⟩
  · exact not_predefined_of_mem (.inr rfl) (by simp [loopLabel])
  · exact not_predefined_of_mem (.inl rfl) (by simp [startLabel, comparisonLabel])
  · exact not_predefined_of_mem (.inl rfl) (by simp [endLabel, comparisonLabel])

theorem staticName_not_label (offset : Nat) : staticName unit offset ∉ labelNames (unitCode unit options cs) := by
  intro h
  rcases mem_labelNames_unitCode h with h | ⟨j, h | h⟩
  · exact staticName_ne (getLast?_loopLabel unit) rfl offset h
  · exact staticName_ne (getLast?_startLabel options j) rfl offset h
  · exact staticName_ne (getLast?_endLabel options j) rfl offset h

/-- What holds of the fixed instructions holds of the code of a unit exactly if it holds of the
operands and the labels. -/
theorem forall_mem_unitCode {P : Instruction → Prop} (hfixed : ∀ i ∈ fixedCode, P i) :
    (∀ i ∈ unitCode unit options cs, P i) ↔ (∀ c ∈ cs, ∀ s ∈ c.operands unit options, P (load s)) ∧
      ∀ s ∈ labelNames (unitCode unit options cs), P (load s) ∧ P (.label s) := by
  have hcode : ∀ k, (∀ i ∈ codeFrom unit options k cs, P i) ↔ (∀ c ∈ cs, ∀ s ∈ c.operands unit options, P (load s)) ∧
      ∀ s ∈ labelNames (codeFrom unit options k cs), P (load s) ∧ P (.label s) := by
    induction cs with
    | nil => exact fun k => iff_of_true (List.forall_mem_nil _) ⟨List.forall_mem_nil _, List.forall_mem_nil _⟩
    | cons c cs ih =>
      intro k
      rw [labelNames_codeFrom_cons, codeFrom, List.forall_mem_append, List.forall_mem_append, List.forall_mem_cons,
        Command.forall_mem_code hfixed, ih, and_and_and_comm]
  have hloop : (∀ i ∈ (if options.endLoop then loopCode unit else []), P i) ↔
      ∀ s ∈ (if options.endLoop then [loopLabel unit] else []), P (load s) ∧ P (.label s) := by
    have hjump : P (jumpIf "0" "JMP") := hfixed _ (by decide)
    split
    · simp only [loopCode, List.forall_mem_cons, List.not_mem_nil, false_imp_iff, implies_true, and_true, hjump]
      exact and_comm
    · exact iff_of_true (List.forall_mem_nil _) (List.forall_mem_nil _)
  rw [labelNames_unitCode, unitCode, List.forall_mem_append, List.forall_mem_append, hcode, hloop, and_assoc]

theorem unknown_symbols_unitCode {known : List String} (ho : options.Sound)
    (hknown : ∀ name ∈ predefinedNames, name ∈ known)
    (hlabels : ∀ s ∈ labelNames (unitCode unit options cs), s ∈ known) (hstatic : ∀ i, staticName unit i ∉ known) :
    ((unitCode unit options cs).filterMap symbol?).filter (· ∉ known) = (statics cs).map (staticName unit) := by
  rw [labelNames_unitCode] at hlabels
  obtain ⟨hcode, hloop⟩ := List.forall_mem_append.1 hlabels
  rw [unitCode, List.filterMap_append, List.filter_append, unknown_symbols_codeFrom ho hknown hcode hstatic,
    List.append_right_eq_self, List.filter_eq_nil_iff]
  intro s hs
  obtain ⟨i, hi, his⟩ := List.mem_filterMap.1 hs
  cases hend : options.endLoop with
  | false =>
    rw [hend] at hi
    cases hi
  | true =>
    rw [hend] at hi hloop
    have hone : loopLabel unit ∈ known := hloop _ (List.mem_singleton.2 rfl)
    have huses : ∀ i ∈ loopCode unit, Command.UsesOnly known i := by
      simp only [loopCode, List.forall_mem_cons]
      have hother : ∀ i : Instruction, i.symbol? = none → Command.UsesOnly known i := by
        intro i hi s hs
        rw [hi] at hs
        cases hs
      exact ⟨hother _ rfl, Command.usesOnly_of_mem hone, hother _ rfl, List.forall_mem_nil _⟩
    simpa using huses i hi s his

theorem eraseDups_map {f : Nat → String} (hf : Function.Injective f) (xs : List Nat) :
    (xs.map f).eraseDups = xs.eraseDups.map f := by
  induction hn : xs.length using Nat.strong_induction_on generalizing xs with
  | _ n ih =>
    cases xs with
    | nil => rfl
    | cons x xs =>
      have hrest : (xs.map f).filter (fun s => !s == f x) = (xs.filter (fun y => !y == x)).map f := by
        rw [List.filter_map]
        refine congrArg (List.map f) (List.filter_congr fun y _ => ?_)
        simp [hf.eq_iff]
      have hlt : (xs.filter (fun y => !y == x)).length < n := by
        rw [← hn]
        exact Nat.lt_succ_of_le (List.length_filter_le _ _)
      rw [List.map_cons, List.eraseDups_cons, List.eraseDups_cons, hrest, ih _ hlt _ rfl, List.map_cons]

/-- **The variables of a unit are its static cells,** in the order of their first use. -/
theorem unbound_unitCode (ho : options.Sound) :
    unbound (unitCode unit options cs) = (statics cs).eraseDups.map (staticName unit) := by
  rw [unbound, Program.labels, map_fst_labelsFrom, fresh, unknown_symbols_unitCode ho,
    eraseDups_map (staticName_injective unit)]
  · exact fun _ => List.mem_append_left _
  · exact fun _ => List.mem_append_right _
  · intro i h
    rcases List.mem_append.1 h with h | h
    · exact not_predefined_of_mem (.inl rfl) (by simp [staticName]) h
    · exact staticName_not_label i h

/-- The instructions run out long before the variables do. -/
theorem length_unbound_le (ho : options.Sound) :
    7 * (unbound (unitCode unit options cs)).length ≤ size (unitCode unit options cs) := by
  have hsub : unbound (unitCode unit options cs) ⊆ (statics cs).map (staticName unit) := by
    rw [unbound_unitCode ho]
    exact List.map_subset _ fun _ => List.mem_eraseDups.1
  have hle : (unbound (unitCode unit options cs)).length ≤ (statics cs).length := by
    have := (List.subperm_of_subset (nodup_fresh _ _) hsub).length_le
    rwa [List.length_map] at this
  calc 7 * (unbound (unitCode unit options cs)).length
    _ ≤ 7 * (statics cs).length := Nat.mul_le_mul_left 7 hle
    _ ≤ size (codeFrom unit options 0 cs) := length_statics_le
    _ ≤ size (unitCode unit options cs) := by
      rw [unitCode, size_append]
      exact Nat.le_add_right _ _

/-- The labels of a unit can be bound if there is room for the instructions. -/
theorem unitCode_resolvable : Program.Resolvable (unitCode unit options cs) ↔
    size (unitCode unit options cs) ≤ 32768 ∧ ∀ b ∈ Program.labels (unitCode unit options cs), b.2 ≤ 32767 := by
  have hnames : (Program.labels (unitCode unit options cs)).map Prod.fst = labelNames (unitCode unit options cs) :=
    map_fst_labelsFrom 0 _
  constructor
  · exact fun h => ⟨h.size_le, h.labels_le⟩
  · rintro ⟨hsize, hlabels⟩
    refine ⟨?_, ?_, hsize, hlabels⟩
    · rw [hnames]
      exact nodup_labelNames_unitCode
    · rw [hnames]
      exact fun _ => label_not_predefined

end Translator

end HackToolchain
