import HackToolchain.Proofs.LineOutcome
import HackToolchain.Proofs.NameIndependence
import Mathlib
/-!
The symbols of a unit, whatever its file is called. Any text becomes the name of a symbol, and what is
one already stays as it is. Behind such a name, and behind any beginning of labels that is empty or a
name itself, the symbols that a translator mints are names again; they differ from each other and from
everything predefined, since their last characters tell what they stand for and no predefined name has a
dot or a dollar sign in it.
-/

namespace HackToolchain

open Instruction Translator

/-! ## Names of files -/

namespace Translator

/-- What is the name of a symbol already is not changed. -/
theorem sanitize_eq_self {cs : List Char} (h : isSymbolName cs = true) : sanitize cs = cs := by
  have hmap : (cs.map fun c => if isSymbolChar c then c else '_') = cs :=
    (List.map_congr_left fun c hc => if_pos (isSymbolChar_of_isSymbolName h c hc)).trans (List.map_id' cs)
  cases cs with
  | nil => cases h
  | cons c cs =>
    rw [isSymbolName, Bool.and_eq_true] at h
    have hdigit := not_isDigit_of_isSymbolStart h.1
    rw [sanitize, hmap]
    exact if_neg (by simp [hdigit])

end Translator

/-! ## Symbols that are minted -/

namespace Role

variable {unit : String} {options : Options}

/-- Whether a translator makes the symbol for this role itself. -/
def isMinted : Role → Bool
  | predefined .. => false
  | static _ | isTrue _ | done _ | loop => true

theorem isSymbolName_symbol (hunit : isSymbolName unit.toList = true)
    (hstart : options.labelStart = "" ∨ isSymbolName options.labelStart.toList = true) {role : Role}
    (h : role.isMinted = true) : isSymbolName (role.symbol unit options).toList = true := by
  cases role with
  | predefined => cases h
  | static offset => exact isSymbolName_staticName hunit offset
  | isTrue k => exact (isSymbolName_comparisonLabel_iff rfl).2 hstart
  | done k => exact (isSymbolName_comparisonLabel_iff rfl).2 hstart
  | loop => exact isSymbolName_loopLabel hunit

theorem symbol_not_predefined {role : Role} (h : role.isMinted = true) :
    role.symbol unit options ∉ predefinedNames := by
  intro hname
  rw [eq_of_symbol_predefined hname rfl] at h
  cases h

end Role

namespace Translator

/-! ## Where symbols are minted -/

/-- A static cell has its symbol if the number in it can be written, and no symbol otherwise. -/
theorem staticSymbol_eq (offset : Nat) (t : Translator) : staticSymbol offset t =
    if offset.repr.length ≤ Text.digitLimit then .ok ((Role.static offset).symbol t.name t.options) t
    else .error (.numeral .tooWide) t := by
  split
  next hshort => exact bind_eq_ok.2 ⟨_, _, numeral_offset hshort t, rfl⟩
  next hlong =>
    refine bind_eq_error.2 (.inl (numeral_of_long ?_ t))
    simpa only [Int.natAbs_natCast, not_le] using hlong

/-- A comparison is written with the two labels of its number. -/
theorem arithmetic_comparison {operation : Operation} {jump : String} (h : operation.comparison? = some jump)
    (t : Translator) : arithmetic operation t = .ok () (t.extend (comparisonCode jump
      ((Role.isTrue t.labels).symbol t.name t.options) ((Role.done t.labels).symbol t.name t.options)) 1) := by
  rw [arithmetic_eq]
  cases operation with
  | eq | lt | gt =>
    cases h
    rfl
  | add | sub | and | or | neg | not => cases h

theorem loopForever_eq (t : Translator) : loopForever t = .ok () (t.extend (loopCode t.name) 0) :=
  rfl

/-- **Minted symbols are names and never collide.** Whatever a file is called, its name becomes the name
of a symbol; such a name is kept, so that nothing happens the second time. Whatever the labels of
comparisons begin with, if it is empty or the name of a symbol: the symbols for the static cells, for
both labels of every comparison and for the loop at the end all differ from each other and from the
predefined ones, all are names of symbols, and none is a numeral. A translator of the unit mints just
these. -/
theorem minted_symbols_never_collide :
    (∀ name : String, isSymbolName (sanitize name.toList) = true ∧
      (isSymbolName name.toList = true → sanitize name.toList = name.toList) ∧
      sanitize (sanitize name.toList) = sanitize name.toList) ∧
    ∀ (name : String) (options : Options),
      options.labelStart = "" ∨ isSymbolName options.labelStart.toList = true →
      let unit := String.ofList (sanitize name.toList)
      Function.Injective (Role.symbol unit options) ∧
      (∀ role : Role, role.isMinted = true → isSymbolName (role.symbol unit options).toList = true ∧
        role.symbol unit options ∉ predefinedNames ∧ Text.isNumeral (role.symbol unit options).toList = false) ∧
      ∀ t : Translator, t.name = unit → t.options = options →
        (∀ offset : Nat, staticSymbol offset t =
          if offset.repr.length ≤ Text.digitLimit then .ok ((Role.static offset).symbol unit options) t
          else .error (.numeral .tooWide) t) ∧
        (∀ operation jump, operation.comparison? = some jump → arithmetic operation t = .ok () (t.extend
          (comparisonCode jump ((Role.isTrue t.labels).symbol unit options) ((Role.done t.labels).symbol unit options))
          1)) ∧
        loopForever t = .ok () (t.extend (loopCode unit) 0) := by
  refine ⟨fun name => ?_, fun name options hstart => ?_⟩
  · have hname := isSymbolName_sanitize name.toList
    exact ⟨hname, sanitize_eq_self, sanitize_eq_self hname⟩
  intro unit
  have hunit : isSymbolName unit.toList = true := isSymbolName_start name options
  refine ⟨Role.symbol_injective unit options, fun role hrole => ?_, ?_⟩
  · have hsymbol := role.isSymbolName_symbol hunit hstart hrole
    exact ⟨hsymbol, Role.symbol_not_predefined hrole, isNumeral_of_isSymbolName hsymbol⟩
  · intro t hname hoptions
    rw [← hname, ← hoptions]
    exact ⟨fun offset => staticSymbol_eq offset t, fun _ _ h => arithmetic_comparison h t, loopForever_eq t⟩

/-- A file and a beginning of labels that look like symbols minted for others. -/
theorem minted_symbols_never_collide_lookalike :
    let options : Options := { labelStart := "_0_LABEL.0" }
    isSymbolName options.labelStart.toList = true ∧ String.ofList (sanitize "0 LABEL".toList) = "_0_LABEL" ∧
      Function.Injective (Role.symbol "_0_LABEL" options) ∧
      (Role.static 0).symbol "_0_LABEL" options = "_0_LABEL.0" ∧
      isSymbolName ((Role.isTrue 7).symbol "_0_LABEL" options).toList = true := by
  intro options
  have hstart : isSymbolName options.labelStart.toList = true := by decide
  have hunit : String.ofList (sanitize "0 LABEL".toList) = "_0_LABEL" := by decide
  have hminted := minted_symbols_never_collide.2 "0 LABEL" options (.inr hstart)
  rw [hunit] at hminted
  obtain ⟨hinjective, hvalid, -⟩ := hminted
  exact ⟨hstart, hunit, hinjective, rfl, (hvalid (.isTrue 7) rfl).1⟩

end Translator

end HackToolchain
