import HackToolchain.Proofs.Assembly
import HackToolchain.Proofs.GeneratedCode
import Mathlib
/-!
The symbols that a translator mints: one for each static cell, two for each comparison, one for the
loop at the end. All are names that the assembler accepts, none is predefined, and their last
characters tell the four kinds apart, whatever the unit and its options are called.
-/

namespace HackToolchain

/-! ## Names of symbols -/

namespace Instruction

theorem isSymbolName_append {cs ds : List Char} (h : isSymbolName cs = true)
    (hd : ∀ d ∈ ds, isSymbolChar d = true) : isSymbolName (cs ++ ds) = true := by
  cases cs with
  | nil => cases h
  | cons c cs =>
    rw [isSymbolName, Bool.and_eq_true, List.all_eq_true] at h
    rw [List.cons_append, isSymbolName, Bool.and_eq_true, List.all_eq_true]
    exact ⟨h.1, List.forall_mem_append.2 ⟨h.2, hd⟩⟩

/-- A name, or nothing, can be continued after a dot. -/
theorem isSymbolName_dot {start : String} {rest : List Char} (h : start = "" ∨ isSymbolName start.toList = true)
    (hr : ∀ c ∈ rest, isSymbolChar c = true) : isSymbolName (start.toList ++ '.' :: rest) = true := by
  rcases h with rfl | h
  · rw [String.toList_empty, List.nil_append, isSymbolName, Bool.and_eq_true, List.all_eq_true]
    exact ⟨rfl, hr⟩
  · exact isSymbolName_append h (List.forall_mem_cons.2 ⟨rfl, hr⟩)

end Instruction

theorem Text.isSymbolChar_of_mem_repr {n : Nat} {c : Char} (h : c ∈ n.repr.toList) :
    Instruction.isSymbolChar c = true :=
  Instruction.isSymbolChar_of_isDigit (isDigit_of_mem_repr h)

namespace Translator

open Instruction

theorem isSymbolName_sanitize (cs : List Char) : isSymbolName (sanitize cs) = true := by
  have hmap : ∀ c ∈ cs.map (fun c => if isSymbolChar c then c else '_'), isSymbolChar c = true := by
    intro c hc
    obtain ⟨d, -, rfl⟩ := List.mem_map.1 hc
    split
    · assumption
    · rfl
  rw [sanitize]
  split
  · rfl
  next c rest heq =>
    rw [heq] at hmap
    obtain ⟨hc, hrest⟩ := List.forall_mem_cons.1 hmap
    split
    · rw [isSymbolName, Bool.and_eq_true, List.all_eq_true]
      exact ⟨rfl, List.forall_mem_cons.2 ⟨hc, hrest⟩⟩
    next hdigit =>
      rw [isSymbolName, Bool.and_eq_true, List.all_eq_true]
      refine ⟨?_, hrest⟩
      simpa [isSymbolChar, hdigit] using hc

/-- Options with which every command can be written: cells at addresses, labels with names. -/
structure Options.Sound (options : Options) : Prop where
  tempBase : 0 ≤ options.tempBase
  pointerBase : 0 ≤ options.pointerBase
  labelStart : options.labelStart = "" ∨ isSymbolName options.labelStart.toList = true

section Names

variable {unit : String} {options : Options}

theorem isSymbolName_start (name : String) (options : Options) :
    isSymbolName (start name options).name.toList = true := by
  rw [start, String.toList_ofList]
  exact isSymbolName_sanitize _

theorem isSymbolName_staticName (h : isSymbolName unit.toList = true) (offset : Nat) :
    isSymbolName (staticName unit offset).toList = true := by
  have : (staticName unit offset).toList = unit.toList ++ '.' :: offset.repr.toList := by simp [staticName]
  rw [this]
  exact isSymbolName_dot (.inr h) fun _ => Text.isSymbolChar_of_mem_repr

/-- A label can be read exactly if what it begins with can. -/
theorem isSymbolName_comparisonLabel_iff {k : Nat} {ending : String} (he : ending.toList.all isSymbolChar = true) :
    isSymbolName (comparisonLabel options k ending).toList = true ↔
      options.labelStart = "" ∨ isSymbolName options.labelStart.toList = true := by
  have hlist : (comparisonLabel options k ending).toList =
      options.labelStart.toList ++ '.' :: (k.repr.toList ++ ending.toList) := by
    simp [comparisonLabel]
  rw [hlist]
  constructor
  · intro h
    cases hstart : options.labelStart.toList with
    | nil => exact .inl (String.toList_eq_nil_iff.1 hstart)
    | cons c cs =>
      rw [hstart, List.cons_append, isSymbolName, Bool.and_eq_true, List.all_append, Bool.and_eq_true] at h
      rw [isSymbolName, Bool.and_eq_true]
      exact .inr ⟨h.1, h.2.1⟩
  · intro h
    exact isSymbolName_dot h
      (List.forall_mem_append.2 ⟨fun _ => Text.isSymbolChar_of_mem_repr, List.all_eq_true.1 he⟩)

theorem isSymbolName_comparisonLabel (h : options.Sound) (k : Nat) {ending : String}
    (he : ending.toList.all isSymbolChar = true) : isSymbolName (comparisonLabel options k ending).toList = true :=
  (isSymbolName_comparisonLabel_iff he).2 h.labelStart

theorem isSymbolName_loopLabel (h : isSymbolName unit.toList = true) : isSymbolName (loopLabel unit).toList = true := by
  rw [loopLabel, String.toList_append]
  exact isSymbolName_append h (List.all_eq_true.1 rfl)

end Names

/-! ## Minted symbols are new -/

theorem getLast?_comparisonLabel (options : Options) (k : Nat) {ending : String} (h : ending ≠ "") :
    (comparisonLabel options k ending).toList.getLast? = ending.toList.getLast? := by
  rw [comparisonLabel, String.toList_append, List.getLast?_append_of_ne_nil]
  simpa using h

theorem getLast?_startLabel (options : Options) (k : Nat) : (startLabel options k).toList.getLast? = some 't' :=
  getLast?_comparisonLabel options k (by decide)

theorem getLast?_endLabel (options : Options) (k : Nat) : (endLabel options k).toList.getLast? = some 'd' :=
  getLast?_comparisonLabel options k (by decide)

theorem getLast?_loopLabel (unit : String) : (loopLabel unit).toList.getLast? = some 'D' := by
  simp [loopLabel]

theorem getLast?_staticName (unit : String) (offset : Nat) :
    ∃ c, (staticName unit offset).toList.getLast? = some c ∧ c.isDigit = true := by
  have hne := Text.toList_repr_ne_nil offset
  refine ⟨offset.repr.toList.getLast hne, ?_, Text.isDigit_of_mem_repr (List.getLast_mem hne)⟩
  rw [staticName, String.toList_append, List.getLast?_append_of_ne_nil _ hne, List.getLast?_eq_some_getLast]

theorem comparisonLabel_injective (options : Options) (ending : String) :
    Function.Injective fun k => comparisonLabel options k ending := by
  intro j k h
  have : (comparisonLabel options j ending).toList = (comparisonLabel options k ending).toList := congrArg _ h
  simp only [comparisonLabel, String.toList_append, List.append_cancel_right_eq, List.append_cancel_left_eq] at this
  exact Nat.repr_inj.1 (String.toList_inj.1 this)

theorem staticName_injective (unit : String) : Function.Injective (staticName unit) := by
  intro i j h
  have : (staticName unit i).toList = (staticName unit j).toList := congrArg _ h
  simp only [staticName, String.toList_append, List.append_cancel_left_eq] at this
  exact Nat.repr_inj.1 (String.toList_inj.1 this)

theorem startLabel_ne_endLabel (options : Options) (j k : Nat) : startLabel options j ≠ endLabel options k := by
  intro h
  have := getLast?_startLabel options j
  rw [h, getLast?_endLabel] at this
  cases this

theorem loopLabel_ne_startLabel (unit : String) (options : Options) (k : Nat) :
    loopLabel unit ≠ startLabel options k := by
  intro h
  have := getLast?_loopLabel unit
  rw [h, getLast?_startLabel] at this
  cases this

theorem loopLabel_ne_endLabel (unit : String) (options : Options) (k : Nat) :
    loopLabel unit ≠ endLabel options k := by
  intro h
  have := getLast?_loopLabel unit
  rw [h, getLast?_endLabel] at this
  cases this

/-- A symbol that does not end in a digit is no static cell. -/
theorem staticName_ne {unit symbol : String} {c : Char} (h : symbol.toList.getLast? = some c)
    (hc : c.isDigit = false) (offset : Nat) : staticName unit offset ≠ symbol := by
  rintro rfl
  obtain ⟨d, hd, hdigit⟩ := getLast?_staticName unit offset
  rw [h] at hd
  cases hd
  rw [hc] at hdigit
  cases hdigit

/-- No predefined name has a dot or a dollar sign in it. -/
theorem not_predefined_of_mem {symbol : String} {c : Char} (hc : c = '.' ∨ c = '$') (h : c ∈ symbol.toList) :
    symbol ∉ predefinedNames := by
  have hplain : ∀ name ∈ predefinedNames, '.' ∉ name.toList ∧ '$' ∉ name.toList := by decide
  intro hp
  rcases hc with rfl | rfl
  · exact (hplain symbol hp).1 h
  · exact (hplain symbol hp).2 h

end Translator

end HackToolchain
