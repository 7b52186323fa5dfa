import HackToolchain.Proofs.Halting
import HackToolchain.Proofs.Renaming
import HackToolchain.Proofs.Verdict
import Mathlib
/-!
The words of a unit do not depend on what things are called. Every symbol in the code of a unit has
a role: it is predefined, a static cell, one of the two labels of a comparison, or the label of the
loop. The symbols that two units have for the same roles correspond one to one, and the code of the
same commands corresponds line by line, remarks apart. So both units are assembled alike.
-/

namespace HackToolchain

open Program Translator Instruction

/-! ## The roles of symbols -/

/-- What a symbol in the code of a unit stands for. -/
inductive Role where
  | predefined (name : String) (h : name ∈ predefinedNames)
  | static (offset : Nat)
  | isTrue (k : Nat)
  | done (k : Nat)
  | loop

namespace Role

/-- The symbol that a unit has for a role. -/
def symbol (unit : String) (options : Options) : Role → String
  | predefined name _ => name
  | static offset => staticName unit offset
  | isTrue k => startLabel options k
  | done k => endLabel options k
  | loop => loopLabel unit

/-- Only predefined symbols are predefined. -/
theorem eq_of_symbol_predefined {unit : String} {options : Options} {role : Role} {name : String}
    (hname : name ∈ predefinedNames) (h : role.symbol unit options = name) : role = predefined name hname := by
  have hnew : ∀ c : Char, c = '.' ∨ c = '$' → c ∉ name.toList := fun c hc hmem => not_predefined_of_mem hc hmem hname
  cases role with
  | predefined other hother =>
    cases h
    rfl
  | static offset => exact absurd (by rw [← h]; simp [symbol, staticName]) (hnew '.' (.inl rfl))
  | isTrue k => exact absurd (by rw [← h]; simp [symbol, startLabel, comparisonLabel]) (hnew '.' (.inl rfl))
  | done k => exact absurd (by rw [← h]; simp [symbol, endLabel, comparisonLabel]) (hnew '.' (.inl rfl))
  | loop => exact absurd (by rw [← h]; simp [symbol, loopLabel]) (hnew '$' (.inr rfl))

/-- A unit never has one symbol for two roles. -/
theorem symbol_injective (unit : String) (options : Options) : Function.Injective (symbol unit options) := by
  intro role role' h
  cases role with
  | predefined name hname => exact (eq_of_symbol_predefined hname h.symm).symm
  | static i =>
    cases role' with
    | predefined name hname => exact eq_of_symbol_predefined hname h
    | static j => exact congrArg static (staticName_injective unit h)
    | isTrue k => exact absurd h (staticName_ne (getLast?_startLabel options k) rfl i)
    | done k => exact absurd h (staticName_ne (getLast?_endLabel options k) rfl i)
    | loop => exact absurd h (staticName_ne (getLast?_loopLabel unit) rfl i)
  | isTrue k =>
    cases role' with
    | predefined name hname => exact eq_of_symbol_predefined hname h
    | static i => exact absurd h.symm (staticName_ne (getLast?_startLabel options k) rfl i)
    | isTrue j => exact congrArg isTrue (comparisonLabel_injective options _ h)
    | done j => exact absurd h (startLabel_ne_endLabel options k j)
    | loop => exact absurd h.symm (loopLabel_ne_startLabel unit options k)
  | done k =>
    cases role' with
    | predefined name hname => exact eq_of_symbol_predefined hname h
    | static i => exact absurd h.symm (staticName_ne (getLast?_endLabel options k) rfl i)
    | isTrue j => exact absurd h.symm (startLabel_ne_endLabel options j k)
    | done j => exact congrArg done (comparisonLabel_injective options _ h)
    | loop => exact absurd h.symm (loopLabel_ne_endLabel unit options k)
  | loop =>
    cases role' with
    | predefined name hname => exact eq_of_symbol_predefined hname h
    | static i => exact absurd h.symm (staticName_ne (getLast?_loopLabel unit) rfl i)
    | isTrue k => exact absurd h (loopLabel_ne_startLabel unit options k)
    | done k => exact absurd h (loopLabel_ne_endLabel unit options k)
    | loop => rfl

end Role

/-- Symbols that two units have for the same role. -/
def SameRole (unit unit' : String) (options options' : Options) (s s' : String) : Prop :=
  ∃ role : Role, role.symbol unit options = s ∧ role.symbol unit' options' = s'

theorem nameMap_sameRole (unit unit' : String) (options options' : Options) :
    NameMap (SameRole unit unit' options options') where
  unique := by
    constructor
    · rintro _ _ _ ⟨role, rfl, hrole⟩ ⟨role', rfl, hrole'⟩
      rw [Role.symbol_injective unit' options' (hrole.trans hrole'.symm)]
    · rintro _ _ _ ⟨role, hrole, rfl⟩ ⟨role', hrole', rfl⟩
      rw [Role.symbol_injective unit options (hrole.trans hrole'.symm)]
  predefined name hname := ⟨.predefined name hname, rfl, rfl⟩

/-! ## Code that corresponds -/

/-- Ways to reach one cell whose symbols are loaded alike. -/
inductive Translator.Access.Alike (Q : Instruction → Instruction → Prop) (offset : Nat) : Access → Access → Prop
  | constant : Q (load offset.repr) (load offset.repr) → Alike Q offset .constant .constant
  | direct {symbol symbol' : String} : Q (load symbol) (load symbol') → Alike Q offset (.direct symbol) (.direct symbol')
  | based {register : String} : Q (load offset.repr) (load offset.repr) → Q (load register) (load register) →
    Alike Q offset (.based register) (.based register)

section Code

variable {Q : Instruction → Instruction → Prop} {unit unit' : String} {options options' : Options}

theorem forall₂_pushCode (hfixed : ∀ i ∈ fixedCode, Q i i) {offset : Nat} {a a' : Access}
    (h : Access.Alike Q offset a a') : List.Forall₂ Q (pushCode offset a) (pushCode offset a') := by
  simp only [fixedCode, List.forall_mem_cons] at hfixed
  cases h with
  | constant hoffset => simp [pushCode, pushD, hfixed, hoffset]
  | direct hsymbol => simp [pushCode, pushD, hfixed, hsymbol]
  | based hoffset hregister => simp [pushCode, pointTo, pushD, hfixed, hoffset, hregister]

theorem forall₂_popCode (hfixed : ∀ i ∈ fixedCode, Q i i) {offset : Nat} {a a' : Access}
    (h : Access.Alike Q offset a a') : List.Forall₂ Q (popCode offset a) (popCode offset a') := by
  simp only [fixedCode, List.forall_mem_cons] at hfixed
  cases h with
  | constant hoffset => simp [popCode]
  | direct hsymbol => simp [popCode, popD, hfixed, hsymbol]
  | based hoffset hregister => simp [popCode, pointTo, popD, hfixed, hoffset, hregister]

theorem forall₂_operationCode (hfixed : ∀ i ∈ fixedCode, Q i i) {k : Nat}
    (hstart : Q (load (startLabel options k)) (load (startLabel options' k)) ∧
      Q (.label (startLabel options k)) (.label (startLabel options' k)))
    (hend : Q (load (endLabel options k)) (load (endLabel options' k)) ∧
      Q (.label (endLabel options k)) (.label (endLabel options' k))) (operation : Operation) :
    List.Forall₂ Q (operationCode options k operation) (operationCode options' k operation) := by
  simp only [fixedCode, List.forall_mem_cons] at hfixed
  cases operation with
  | add | sub | and | or | neg | not =>
    simp [operationCode, Operation.binary?, Operation.unary?, popD, pointToTop, hfixed]
  | eq | lt | gt =>
    simp [operationCode, Operation.binary?, Operation.unary?, Operation.comparison?, comparisonCode, popD, pointToTop,
      hfixed, hstart, hend]

/-- Options under which the same commands have code of one shape, with labels that have names. -/
structure SameShape (options options' : Options) : Prop where
  tempBase : options.tempBase = options'.tempBase
  pointerBase : options.pointerBase = options'.pointerBase
  endLoop : options.endLoop = options'.endLoop
  labelStart : options.labelStart = "" ∨ isSymbolName options.labelStart.toList = true
  labelStart' : options'.labelStart = "" ∨ isSymbolName options'.labelStart.toList = true

/-- Instructions whose lines are read alike. -/
def Corresponds (R : String → String → Prop) (i i' : Instruction) : Prop :=
  Line.Renamed R (.raw i.render) (.raw i'.render)

variable {R : String → String → Prop}

/-- An instruction corresponds to itself if its symbol does. -/
theorem corresponds_self {i : Instruction} (hi : i.Legible) (hlabel : i.label? = none)
    (hsymbol : ∀ s, i.symbol? = some s → R s s) : Corresponds R i i := by
  refine .read hi hi ?_
  cases i with
  | address symbol =>
    cases hnum : Text.isNumeral symbol.toList with
    | true => exact .literal hnum
    | false => exact .symbol hnum hnum (hsymbol symbol (by simp [symbol?, hnum]))
  | label name => cases hlabel
  | compute dest computation jump => exact .compute dest computation jump
  | unrecognized text => exact .unrecognized text text

theorem corresponds_fixedCode (hR : NameMap R) : ∀ i ∈ fixedCode, Corresponds R i i := by
  have hplain : ∀ i ∈ fixedCode, i.label? = none ∧ ∀ s ∈ i.symbol?, s ∈ predefinedNames := by decide
  intro i hi
  exact corresponds_self (fixedCode_legible i hi) (hplain i hi).1 fun s hs => hR.predefined s ((hplain i hi).2 s hs)

theorem corresponds_register (hR : NameMap R) {register : String} (hr : register ∈ predefinedNames)
    (hlegible : (load register).Legible) : Corresponds R (load register) (load register) := by
  refine corresponds_self hlegible rfl fun s hs => ?_
  rw [load, symbol?] at hs
  split at hs
  · cases hs
  · cases hs
    exact hR.predefined _ hr

theorem corresponds_repr (R : String → String → Prop) (n : Nat) : Corresponds R (load n.repr) (load n.repr) :=
  .read (legible_address (.inl (Text.isNumeral_repr n))) (legible_address (.inl (Text.isNumeral_repr n)))
    (.literal (Text.isNumeral_repr n))

/-- A number below zero is no address, whatever the names are. -/
theorem corresponds_decimal (R : String → String → Prop) (n : Int) :
    Corresponds R (load (Text.decimal n)) (load (Text.decimal n)) := by
  by_cases hread : (load (Text.decimal n)).Readable
  · rw [Text.decimal_of_nonneg (nonneg_of_readable hread)]
    exact corresponds_repr R _
  · simp only [Readable, not_forall, not_not] at hread
    obtain ⟨e, he⟩ := hread
    exact .refused he he (.refl e)

/-- Names that correspond are loaded alike, and are labels alike. -/
theorem corresponds_name {s s' : String} (hs : isSymbolName s.toList = true) (hs' : isSymbolName s'.toList = true)
    (h : R s s') : Corresponds R (load s) (load s') ∧ Corresponds R (.label s) (.label s') := by
  refine ⟨?_, ?_⟩
  · exact .read (legible_address (.inr hs)) (legible_address (.inr hs'))
      (.symbol (isNumeral_of_isSymbolName hs) (isNumeral_of_isSymbolName hs') h)
  · exact .read (legible_label hs) (legible_label hs') (.label h)

theorem access_alike (hR : NameMap R) (hunit : isSymbolName unit.toList = true) (hunit' : isSymbolName unit'.toList = true)
    (hshape : SameShape options options') (hstatic : ∀ i, R (staticName unit i) (staticName unit' i)) (segment : Segment)
    (offset : Nat) : Access.Alike (Corresponds R) offset (access unit options segment offset)
      (access unit' options' segment offset) := by
  cases segment with
  | constant => exact .constant (corresponds_repr R offset)
  | argument | «local» | this | that =>
    exact .based (corresponds_repr R offset) (corresponds_register hR (by decide) (by decide))
  | static =>
    exact .direct (corresponds_name (isSymbolName_staticName hunit offset) (isSymbolName_staticName hunit' offset)
      (hstatic offset)).1
  | pointer =>
    rw [access, access, hshape.pointerBase]
    exact .direct (corresponds_decimal R _)
  | temp =>
    rw [access, access, hshape.tempBase]
    exact .direct (corresponds_decimal R _)

theorem forall₂_code (hunit : isSymbolName unit.toList = true) (hunit' : isSymbolName unit'.toList = true)
    (hshape : SameShape options options') (k : Nat) (c : Command) :
    List.Forall₂ (Corresponds (SameRole unit unit' options options')) (c.code unit options k)
      (c.code unit' options' k) := by
  have hR := nameMap_sameRole unit unit' options options'
  have hfixed := corresponds_fixedCode hR
  have haccess := access_alike hR hunit hunit' hshape fun i => ⟨.static i, rfl, rfl⟩
  have hlabel {ending : String} (he : ending.toList.all isSymbolChar = true) :
      isSymbolName (comparisonLabel options k ending).toList = true :=
    (isSymbolName_comparisonLabel_iff he).2 hshape.labelStart
  have hlabel' {ending : String} (he : ending.toList.all isSymbolChar = true) :
      isSymbolName (comparisonLabel options' k ending).toList = true :=
    (isSymbolName_comparisonLabel_iff he).2 hshape.labelStart'
  cases c with
  | push segment offset => exact forall₂_pushCode hfixed (haccess segment offset)
  | pop segment offset => exact forall₂_popCode hfixed (haccess segment offset)
  | arithmetic operation =>
    refine forall₂_operationCode hfixed ?_ ?_ operation
    · exact corresponds_name (hlabel rfl) (hlabel' rfl) ⟨.isTrue k, rfl, rfl⟩
    · exact corresponds_name (hlabel rfl) (hlabel' rfl) ⟨.done k, rfl, rfl⟩
  | unsupported | unrecognized => exact .nil

theorem forall₂_codeFrom (hunit : isSymbolName unit.toList = true) (hunit' : isSymbolName unit'.toList = true)
    (hshape : SameShape options options') (k : Nat) (cs : List Command) :
    List.Forall₂ (Corresponds (SameRole unit unit' options options')) (codeFrom unit options k cs)
      (codeFrom unit' options' k cs) := by
  induction cs generalizing k with
  | nil => exact .nil
  | cons c cs ih => exact List.rel_append (forall₂_code hunit hunit' hshape k c) (ih _)

/-- The code of the same commands corresponds, instruction by instruction. -/
theorem forall₂_unitCode (hunit : isSymbolName unit.toList = true) (hunit' : isSymbolName unit'.toList = true)
    (hshape : SameShape options options') (cs : List Command) :
    List.Forall₂ (Corresponds (SameRole unit unit' options options')) (unitCode unit options cs)
      (unitCode unit' options' cs) := by
  rw [unitCode, unitCode, ← hshape.endLoop]
  refine List.rel_append (forall₂_codeFrom hunit hunit' hshape 0 cs) ?_
  split
  · obtain ⟨hload, hlabel⟩ := corresponds_name (R := SameRole unit unit' options options')
      (isSymbolName_loopLabel hunit) (isSymbolName_loopLabel hunit') ⟨.loop, rfl, rfl⟩
    have hjump := corresponds_fixedCode (nameMap_sameRole unit unit' options options') (jumpIf "0" "JMP") (by decide)
    exact .cons hlabel (.cons hload (.cons hjump .nil))
  · exact .nil

end Code

/-! ## Units under different names -/

/-- Remarks apart, the lines of a unit are its instructions. -/
theorem Spells.sameText {out : List String} {code : List Instruction} (h : Spells out code) :
    SameText (out.map .raw) (code.map fun i => .raw i.render) := by
  induction h with
  | nil => exact .nil
  | remark text _ ih => exact .skip (stripComment_comment text) ih
  | instruction i _ ih => exact .keep rfl ih

theorem assembleLines_sameShape {name name' : String} {options options' : Options} {lines : List Line}
    {out out' : List String} {t t' : Translator} (h : translateLines name options lines = .ok out t)
    (h' : translateLines name' options' lines = .ok out' t') (hshape : SameShape options options') (strict : Bool) :
    Matches Failure.SameKind (fun _ _ => True) (assembleLines strict (out.map .raw))
      (assembleLines strict (out'.map .raw)) := by
  have hcode := forall₂_unitCode (isSymbolName_start name options) (isSymbolName_start name' options') hshape
    (commands lines)
  have hlines := assembleLines_sameText (spells_of_translateLines h).1.sameText strict
  have hlines' := assembleLines_sameText (spells_of_translateLines h').1.sameText strict
  have hrenamed := assembleLines_renamed (nameMap_sameRole _ _ _ _)
    (List.forall₂_map_left_iff.2 (List.forall₂_map_right_iff.2 hcode)) strict
  have hleft : Matches Failure.SameKind (fun _ _ => True) (assembleLines strict (out.map .raw)) _ :=
    hlines.trans hrenamed (fun _ _ _ he hf => he.sameKind.trans hf) fun _ _ _ _ _ => trivial
  have hright : Matches Failure.Alike (fun _ _ => True) _ (assembleLines strict (out'.map .raw)) :=
    hlines'.symm (fun _ _ => Eq.symm) fun _ _ _ => trivial
  exact hleft.trans hright (fun _ _ _ he hf => he.trans hf.sameKind) fun _ _ _ _ _ => trivial

/-- **The words of a unit do not depend on names and remarks.** For the same lines, two units with
any names and any options that agree in what is refused, in the loop and in where cells are placed
are both refused, with the same failure, or both translated; and then they are assembled into the
same words, or both refused by the assembler for the same reason, names apart. -/
theorem words_independent_of_names (name name' : String) (options options' : Options)
    (hstrict : options.strict = options'.strict) (hloop : options.endLoop = options'.endLoop)
    (htemp : options.tempBase = options'.tempBase) (hpointer : options.pointerBase = options'.pointerBase)
    (hlabel : options.labelStart = "" ∨ isSymbolName options.labelStart.toList = true)
    (hlabel' : options'.labelStart = "" ∨ isSymbolName options'.labelStart.toList = true)
    (lines : List Line) (strict : Bool) :
    (∃ e t t', translateLines name options lines = .error e t ∧ translateLines name' options' lines = .error e t') ∨
    ∃ out t out' t', translateLines name options lines = .ok out t ∧ translateLines name' options' lines = .ok out' t' ∧
      ((∃ words s s', assembleLines strict (out.map .raw) = .ok words s ∧
        assembleLines strict (out'.map .raw) = .ok words s') ∨
      ∃ e s e' s', assembleLines strict (out.map .raw) = .error e s ∧
        assembleLines strict (out'.map .raw) = .error e' s' ∧ e.nameless = e'.nameless) := by
  have hverdict := sameVerdict_translateLines name name' hstrict htemp hpointer lines
  generalize htranslate : translateLines name options lines = r at hverdict
  generalize htranslate' : translateLines name' options' lines = r' at hverdict
  cases hverdict with
  | error e => exact .inl ⟨e, _, _, rfl, rfl⟩
  | @ok out out' t t' _ =>
    refine .inr ⟨out, t, out', t', rfl, rfl, ?_⟩
    have hmatches := assembleLines_sameShape htranslate htranslate' ⟨htemp, hpointer, hloop, hlabel, hlabel'⟩ strict
    generalize assembleLines strict (out.map .raw) = r at hmatches
    generalize assembleLines strict (out'.map .raw) = r' at hmatches
    cases hmatches with
    | ok words _ => exact .inl ⟨words, _, _, rfl, rfl⟩
    | error he _ => exact .inr ⟨_, _, _, _, rfl, rfl, he⟩

/-- A unit whose name is no symbol, with remarks and labels that begin with a point, and one with
plain names: a static cell, a cell of `temp` and a comparison. -/
theorem words_independent_of_names_comparison :
    let options : Options := { comments := true, labelStart := "", tempBase := 5 }
    let options' : Options := { labelStart := "CMP", tempBase := 5 }
    let lines : List Line := [.raw "push static 2", .raw "push temp 1", .raw "eq", .raw "pop static 0"]
    ∃ out t out' t' words s s', translateLines "9 lives" options lines = .ok out t ∧
      translateLines "Main" options' lines = .ok out' t' ∧ assembleLines true (out.map .raw) = .ok words s ∧
      assembleLines true (out'.map .raw) = .ok words s' := by
  intro options options' lines
  rcases words_independent_of_names "9 lives" "Main" options options' rfl rfl rfl rfl (by decide) (by decide) lines true
    with ⟨e, t, t', h, -⟩ | ⟨out, t, out', t', h, h', ⟨words, s, s', hs, hs'⟩ | ⟨e, s, e', s', hs, -⟩⟩
  · have hsucceeds : succeeded (translateLines "9 lives" options lines) = true := by decide +kernel
    rw [h] at hsucceeds
    cases hsucceeds
  · exact ⟨out, t, out', t', words, s, s', h, h', hs, hs'⟩
  · obtain ⟨hwf, hprogram⟩ := (spells_of_translateLines h).1.read (by decide +kernel)
    have hassemblable : (ofLines (out.map .raw)).Assemblable true := by
      rw [hprogram]
      decide +kernel
    obtain ⟨words, s, hassemble⟩ := Assembler.exists_assembled hwf hassemblable
    rw [hassemble] at hs
    cases hs

end HackToolchain
