import HackToolchain.Proofs.CommandGrammar
import HackToolchain.Proofs.UnitLayout
import Mathlib
/-!
The assembler accepts what the translator writes, as far as there is room. Every instruction of
the code of a unit is read back from its line as itself and can be encoded, unless the address of a
cell or an offset does not fit into an instruction; so a unit is assembled exactly if its cells and
its instructions fit, and nothing else can go wrong.
-/

namespace HackToolchain

open Program

/-! ## Written instructions are read back -/

/-- The instruction, written on a line, is read as itself. -/
def Instruction.Legible (i : Instruction) : Prop :=
  (Line.raw i.render).reading? = some (.ok i)

instance : DecidablePred Instruction.Legible :=
  fun i => inferInstanceAs (Decidable ((Line.raw i.render).reading? = some (.ok i)))

theorem Line.reading?_remark (text : String) : (Line.raw ("// " ++ text)).reading? = none := by
  rw [Line.reading?, if_pos]
  exact stripComment_comment text

theorem Spells.read {out : List String} {code : Program} (h : Spells out code) (hl : ∀ i ∈ code, i.Legible) :
    WellFormed (out.map .raw) ∧ ofLines (out.map .raw) = code := by
  induction h with
  | nil => exact ⟨List.forall_mem_nil _, rfl⟩
  | remark text _ ih =>
    obtain ⟨hwf, hof⟩ := ih hl
    have hr := Line.reading?_remark text
    rw [List.map_cons, ofLines_cons_of_none hr]
    exact ⟨.append (.of_reading? (by simp [hr])) hwf, hof⟩
  | instruction i _ ih =>
    obtain ⟨hi, hl⟩ := List.forall_mem_cons.1 hl
    obtain ⟨hwf, hof⟩ := ih hl
    rw [List.map_cons, ofLines_cons_of_ok hi, hof]
    exact ⟨.append (.of_reading? (by simp [show (Line.raw i.render).reading? = _ from hi])) hwf, rfl⟩

namespace Instruction

theorem legible_of_parse {i : Instruction} (hplain : ∀ c ∈ i.render.toList, isPlain c = true) (hne : i.render ≠ "")
    (hparse : parse i.render = .ok i) : i.Legible := by
  rw [Legible, Line.reading?, Line.content, stripComment_eq_self hplain, if_neg hne, classify, hparse]

theorem legible_address {symbol : String}
    (h : Text.isNumeral symbol.toList = true ∨ isSymbolName symbol.toList = true) :
    (address symbol).Legible := by
  have hchars : ∀ c ∈ symbol.toList, isSymbolChar c = true := by
    rcases h with h | h
    · rw [Text.isNumeral, Bool.and_eq_true, List.all_eq_true] at h
      exact fun c hc => isSymbolChar_of_isDigit (h.2 c hc)
    · exact isSymbolChar_of_isSymbolName h
  have hrender : (address symbol).render.toList = '@' :: symbol.toList := by simp [render]
  have hplain : ∀ c ∈ symbol.toList, isPlain c = true := fun c hc => isPlain_of_isSymbolChar (hchars c hc)
  refine legible_of_parse ?_ ?_ ?_
  · rw [hrender]
    exact List.forall_mem_cons.2 ⟨rfl, hplain⟩
  · intro hempty
    rw [hempty] at hrender
    cases hrender
  · have htrim : Text.trim symbol.toList = symbol.toList :=
      Text.trim_eq_self fun c hc => isBlank_of_isPlain (hplain c hc)
    have hne : symbol.toList.isEmpty = false := by
      cases hs : symbol.toList with
      | nil => rw [hs] at h; simp [Text.isNumeral, isSymbolName] at h
      | cons => rfl
    rw [parse, hrender]
    simp only [htrim, hne, Bool.false_eq_true, if_false]
    rw [if_pos (by simpa using h), String.ofList_toList]

theorem legible_label {name : String} (h : isSymbolName name.toList = true) : (label name).Legible := by
  have hrender : (label name).render.toList = '(' :: (name.toList ++ [')']) := by simp [render]
  refine legible_of_parse ?_ ?_ ?_
  · rw [hrender]
    refine List.forall_mem_cons.2 ⟨rfl, List.forall_mem_append.2 ⟨?_, List.forall_mem_singleton.2 rfl⟩⟩
    exact fun c hc => isPlain_of_isSymbolChar (isSymbolChar_of_isSymbolName h c hc)
  · intro hempty
    rw [hempty] at hrender
    cases hrender
  · rw [parse, hrender]
    simp [h, String.ofList_toList]

end Instruction

/-! ## Operands that fit -/

/-- What the memory has room for: the address of a direct cell and the offset of a based one must
fit into an address instruction. -/
def Segment.Fits (options : Translator.Options) (segment : Segment) (offset : Nat) : Prop :=
  match segment with
  | argument | .local | this | that => offset < 32768
  | pointer => options.pointerBase + offset < 32768
  | temp => options.tempBase + offset < 32768
  | static | constant => True

def Command.Fits (options : Translator.Options) : Command → Prop
  | push segment offset | pop segment offset => segment.Fits options offset
  | arithmetic _ | unsupported .. | unrecognized _ => True

instance (options : Translator.Options) (segment : Segment) (offset : Nat) : Decidable (segment.Fits options offset) :=
  match segment with
  | .argument | .local | .this | .that => inferInstanceAs (Decidable (offset < 32768))
  | .pointer => inferInstanceAs (Decidable (options.pointerBase + offset < 32768))
  | .temp => inferInstanceAs (Decidable (options.tempBase + offset < 32768))
  | .static | .constant => isTrue trivial

instance (options : Translator.Options) : DecidablePred (Command.Fits options)
  | .push segment offset | .pop segment offset => inferInstanceAs (Decidable (segment.Fits options offset))
  | .arithmetic _ | .unsupported .. | .unrecognized _ => isTrue trivial

namespace Translator

open Instruction

variable {unit : String} {options : Options} {segment : Segment} {offset : Nat} {strict : Bool}

theorem encodable_load_repr (h : (load offset.repr).Brief) : (load offset.repr).Encodable strict ↔ offset < 32768 := by
  have hnum := Text.isNumeral_repr offset
  constructor
  · intro he
    have := (he hnum).2
    rwa [Text.numeralValue_repr] at this
  · intro hlt _
    rw [Text.numeralValue_repr]
    exact ⟨h hnum, hlt⟩

theorem encodable_load_name {symbol : String} (h : isSymbolName symbol.toList = true) :
    (load symbol).Encodable strict := by
  intro hnum
  rw [isNumeral_of_isSymbolName h] at hnum
  cases hnum

theorem encodable_load_decimal {k : Int} (hk : 0 ≤ k) (h : (load (Text.decimal k)).Brief) :
    (load (Text.decimal k)).Encodable strict ↔ k < 32768 := by
  rw [Text.decimal_of_nonneg hk] at h ⊢
  rw [encodable_load_repr h]
  omega

theorem operands_legible (hu : isSymbolName unit.toList = true) (ho : options.Sound) :
    ∀ s ∈ (access unit options segment offset).operands offset, (load s).Legible := by
  have hrepr : ∀ n : Nat, (load n.repr).Legible := fun n => legible_address (.inl (Text.isNumeral_repr n))
  have := ho.pointerBase
  have := ho.tempBase
  cases segment with
  | argument | «local» | this | that =>
    exact List.forall_mem_cons.2 ⟨hrepr _, List.forall_mem_singleton.2 (by decide)⟩
  | constant => exact List.forall_mem_singleton.2 (hrepr _)
  | static => exact List.forall_mem_singleton.2 (legible_address (.inr (isSymbolName_staticName hu _)))
  | pointer | temp =>
    refine List.forall_mem_singleton.2 ?_
    rw [Text.decimal_of_nonneg (by omega)]
    exact hrepr _

theorem operands_encodable (hu : isSymbolName unit.toList = true) (ho : options.Sound)
    (hconstant : segment = .constant → offset < 32768)
    (hb : ∀ s ∈ (access unit options segment offset).operands offset, (load s).Brief) :
    (∀ s ∈ (access unit options segment offset).operands offset, (load s).Encodable strict) ↔
      segment.Fits options offset := by
  have := ho.pointerBase
  have := ho.tempBase
  cases segment with
  | argument | «local» | this | that =>
    obtain ⟨hoffset, -⟩ := List.forall_mem_cons.1 hb
    refine List.forall_mem_cons.trans ((and_iff_left ?_).trans (encodable_load_repr hoffset))
    exact List.forall_mem_singleton.2 (encodable_load_name (by decide))
  | constant =>
    rw [access, Access.operands, List.forall_mem_singleton] at hb ⊢
    rw [encodable_load_repr hb]
    exact iff_of_true (hconstant rfl) trivial
  | static =>
    rw [access, Access.operands, List.forall_mem_singleton]
    exact iff_of_true (encodable_load_name (isSymbolName_staticName hu _)) trivial
  | pointer | temp =>
    rw [access, Access.operands, List.forall_mem_singleton] at hb ⊢
    exact encodable_load_decimal (by omega) hb

end Translator

namespace Command

open Translator Instruction

variable {unit : String} {options : Options} {c : Command}

theorem operands_legible (hu : isSymbolName unit.toList = true) (ho : options.Sound) :
    ∀ s ∈ c.operands unit options, (load s).Legible := by
  cases c with
  | push segment offset => exact Translator.operands_legible hu ho
  | pop segment offset =>
    by_cases hs : segment = .constant
    · subst hs
      exact List.forall_mem_nil _
    · rw [operands_pop hs]
      exact Translator.operands_legible hu ho
  | arithmetic | unsupported | unrecognized => exact List.forall_mem_nil _

theorem operands_encodable {strict : Bool} (hu : isSymbolName unit.toList = true) (ho : options.Sound)
    (hconstant : ∀ offset, c = .push .constant offset → offset < 32768)
    (hb : ∀ s ∈ c.operands unit options, (load s).Brief) :
    (∀ s ∈ c.operands unit options, (load s).Encodable strict) ↔ c.Fits options := by
  cases c with
  | push segment offset =>
    exact Translator.operands_encodable hu ho (fun h => hconstant offset (by rw [h])) hb
  | pop segment offset =>
    by_cases hs : segment = .constant
    · subst hs
      exact iff_of_true (List.forall_mem_nil _) trivial
    · rw [operands_pop hs] at hb ⊢
      exact Translator.operands_encodable hu ho (fun h => absurd h hs) hb
  | arithmetic | unsupported | unrecognized => exact iff_of_true (List.forall_mem_nil _) trivial

end Command

/-! ## Units that fit -/

namespace Translator

open Instruction

variable {unit : String} {options : Options} {cs : List Command}

theorem isSymbolName_label (hu : isSymbolName unit.toList = true) (ho : options.Sound) {s : String}
    (h : s ∈ labelNames (unitCode unit options cs)) : isSymbolName s.toList = true := by
  rcases mem_labelNames_unitCode h with rfl | ⟨j, rfl | rfl⟩
  · exact isSymbolName_loopLabel hu
  · exact isSymbolName_comparisonLabel ho j rfl
  · exact isSymbolName_comparisonLabel ho j rfl

theorem fixedCode_legible : ∀ i ∈ fixedCode, i.Legible := by
  decide

theorem unitCode_legible (hu : isSymbolName unit.toList = true) (ho : options.Sound) :
    ∀ i ∈ unitCode unit options cs, i.Legible := by
  refine (forall_mem_unitCode fixedCode_legible).2 ⟨fun c _ => Command.operands_legible hu ho, fun s hs => ?_⟩
  have hname := isSymbolName_label hu ho hs
  exact ⟨legible_address (.inr hname), legible_label hname⟩

/-- The code of a unit can be encoded exactly if all its cells fit. -/
theorem unitCode_encodable {strict : Bool} (hu : isSymbolName unit.toList = true) (ho : options.Sound)
    (hconstant : ∀ c ∈ cs, ∀ offset, c = .push .constant offset → offset < 32768)
    (hb : ∀ i ∈ unitCode unit options cs, i.Brief) :
    (∀ i ∈ unitCode unit options cs, i.Encodable strict) ↔ ∀ c ∈ cs, c.Fits options := by
  have hfixed : ∀ i ∈ fixedCode, i.Encodable strict := by cases strict <;> decide
  have hbrief := ((forall_mem_unitCode (by decide)).1 hb).1
  rw [forall_mem_unitCode hfixed]
  refine (and_iff_left fun s hs => ?_).trans (forall₂_congr fun c hc => ?_)
  · exact ⟨encodable_load_name (isSymbolName_label hu ho hs), trivial⟩
  · exact Command.operands_encodable hu ho (hconstant c hc) (hbrief c hc)

theorem unitCode_recognized (text : String) : .unrecognized text ∉ unitCode unit options cs := by
  have hall : ∀ i ∈ unitCode unit options cs, i ≠ .unrecognized text := by
    refine (forall_mem_unitCode ?_).2 ⟨fun _ _ _ _ h => ?_, fun _ _ => ⟨fun h => ?_, fun h => ?_⟩⟩
    · simp [fixedCode, load, setA, setD, setM, jumpIf]
    all_goals cases h
  exact fun h => hall _ h rfl

theorem unitCode_known {dest : Destination} {computation jump : String}
    (h : .compute dest computation jump ∈ unitCode unit options cs) :
    (Computation.ofText? computation).isSome ∧ (Jump.ofText? jump).isSome := by
  have hall : ∀ i ∈ unitCode unit options cs, ∀ dest computation jump, i = .compute dest computation jump →
      (Computation.ofText? computation).isSome ∧ (Jump.ofText? jump).isSome := by
    refine (forall_mem_unitCode ?_).2 ⟨fun _ _ _ _ _ _ _ h => ?_, fun _ _ => ⟨fun _ _ _ h => ?_, fun _ _ _ h => ?_⟩⟩
    · have hfixed : ∀ i ∈ fixedCode, i.Encodable true := by decide
      rintro i hi dest computation jump rfl
      exact hfixed _ hi
    all_goals cases h
  exact hall _ h dest computation jump rfl

end Translator

/-! ## What is translated can be assembled -/

/-- Constants that are too big are refused before they are translated. -/
theorem Command.constant_lt_of_classify {text : String} {location : Option Location} {offset : Nat}
    (h : classify text location = .ok (.push .constant offset)) : offset < 32768 := by
  obtain ⟨first, operands, hread⟩ := exists_reading h
  obtain ⟨-, segment, digits, -, -, -, hsmall⟩ := reading_push_iff.1 hread
  exact hsmall rfl

theorem constant_lt_of_mem_commands {lines : List Line} {c : Command} (hc : c ∈ commands lines) (offset : Nat)
    (h : c = .push .constant offset) : offset < 32768 := by
  subst h
  obtain ⟨line, -, hline⟩ := List.mem_filterMap.1 hc
  rw [Line.command?] at hline
  split at hline
  · cases hline
  · obtain ⟨hclassify, -⟩ := Option.filter_eq_some_iff.1 hline
    cases hr : Command.classify line.content line.location with
    | error e => rw [hr] at hclassify; cases hclassify
    | ok c =>
      rw [hr] at hclassify
      cases hclassify
      exact Command.constant_lt_of_classify hr

section

variable {name : String} {options : Translator.Options} {lines : List Line} {out : List String} {t : Translator}

/-- The program on the lines that are written is the code of the commands. -/
theorem program_of_translateLines (ho : options.Sound) (h : translateLines name options lines = .ok out t) :
    WellFormed (out.map .raw) ∧
      ofLines (out.map .raw) = Translator.unitCode (Translator.start name options).name options (commands lines) :=
  (Translator.spells_of_translateLines h).1.read
    (Translator.unitCode_legible (Translator.isSymbolName_start name options) ho)

/-- Only the size of the program and of its addresses decides whether it can be assembled. -/
theorem assemblable_of_translateLines (ho : options.Sound) (h : translateLines name options lines = .ok out t)
    (strict : Bool) : (ofLines (out.map .raw)).Assemblable strict ↔
      (ofLines (out.map .raw)).size ≤ 32768 ∧ (∀ b ∈ (ofLines (out.map .raw)).labels, b.2 ≤ 32767) ∧
        ∀ c ∈ commands lines, c.Fits options := by
  rw [(program_of_translateLines ho h).2]
  set code := Translator.unitCode (Translator.start name options).name options (commands lines)
  have hencodable : (∀ i ∈ code, i.Encodable strict) ↔ ∀ c ∈ commands lines, c.Fits options :=
    Translator.unitCode_encodable (Translator.isSymbolName_start name options) ho
      (fun c => constant_lt_of_mem_commands) (Translator.spells_of_translateLines h).2
  constructor
  · intro ha
    exact ⟨ha.size_le, ha.labels_le, hencodable.1 ha.encodable⟩
  · rintro ⟨hsize, hlabels, hfits⟩
    refine ⟨Translator.unitCode_resolvable.2 ⟨hsize, hlabels⟩, ?_, hencodable.2 hfits⟩
    have : 7 * (unbound code).length ≤ size code := Translator.length_unbound_le ho
    omega

theorem skipWarnings_of_translateLines (ho : options.Sound) (h : translateLines name options lines = .ok out t) :
    Assembler.skipWarnings (out.map .raw) = [] := by
  refine Assembler.skipWarnings_eq_nil ?_
  rw [(program_of_translateLines ho h).2]
  exact Translator.unitCode_recognized

/-- What is translated can only be refused for lack of room. -/
theorem exhausted_of_translateLines (ho : options.Sound) (h : translateLines name options lines = .ok out t)
    {strict : Bool} {e : Failure} (hf : Assembler.Fault strict (out.map .raw) e) :
    ∃ address region location, e = Cause.at (.addressSpaceExhausted address 32768 region) location ∧
      (region = .instructions ∨ region = .address) := by
  obtain ⟨hwf, hprogram⟩ := program_of_translateLines ho h
  rcases hf with hf | ⟨-, hres, hf⟩
  · cases hf with
    | malformed hline hr => exact absurd hr (hwf _ hline _)
    | duplicateLabel hdup =>
      rw [hprogram, List.map_append, labels, map_fst_labelsFrom] at hdup
      refine (hdup (List.nodup_append.2 ⟨by decide, Translator.nodup_labelNames_unitCode, ?_⟩)).elim
      rintro s hs _ ht rfl
      exact Translator.label_not_predefined ht hs
    | instructions => exact ⟨_, _, _, rfl, .inl rfl⟩
  · have hresolved := hres.size_le
    cases hf with
    | digits hi hnum hlt =>
      rw [hprogram] at hi
      exact absurd ((Translator.spells_of_translateLines h).2 _ hi hnum) (Nat.not_le.2 hlt)
    | address => exact ⟨_, _, _, rfl, .inr rfl⟩
    | data hlt =>
      rw [hprogram] at hlt hresolved
      have hle := @Translator.length_unbound_le (Translator.start name options).name options (commands lines) ho
      omega
    | unknownComputation hi hc =>
      rw [hprogram] at hi
      simpa [hc] using (Translator.unitCode_known hi).1
    | unknownJump hi hj =>
      rw [hprogram] at hi
      simpa [hj] using (Translator.unitCode_known hi).2
    | unrecognized _ hi =>
      rw [hprogram] at hi
      exact absurd hi (Translator.unitCode_recognized _)

end

/-- **The assembler accepts what the translator writes, with exact limits.** There must be room for
the instructions and below the labels, and the addresses and offsets of the cells must fit; a
program that lacks room is refused for just that, in the region of the instructions or of an
address and never of the variables. No warning is given either way. -/
theorem translation_accepted_iff_fits (name : String) (options : Translator.Options) (ho : options.Sound)
    (lines : List Line) (out : List String) (t : Translator) (h : translateLines name options lines = .ok out t)
    (strict : Bool) :
    ((∃ words s, assembleLines strict (out.map .raw) = .ok words s) ↔
      (ofLines (out.map .raw)).size ≤ 32768 ∧ (∀ b ∈ (ofLines (out.map .raw)).labels, b.2 ≤ 32767) ∧
        ∀ c ∈ commands lines, c.Fits options) ∧
    (∀ words s, assembleLines strict (out.map .raw) = .ok words s → s.warnings = #[]) ∧
    ∀ e s, assembleLines strict (out.map .raw) = .error e s → s.warnings = #[] ∧
      ∃ address region location, e = Cause.at (.addressSpaceExhausted address 32768 region) location ∧
        (region = .instructions ∨ region = .address) := by
  have hnone := skipWarnings_of_translateLines ho h
  have hiff := assemblable_of_translateLines ho h strict
  refine ⟨⟨?_, fun hfits => ?_⟩, ?_, ?_⟩
  · rintro ⟨words, s, hok⟩
    exact hiff.1 (Assembler.assembled hok).1.2
  · exact Assembler.exists_assembled (program_of_translateLines ho h).1 (hiff.2 hfits)
  · intro words s hok
    have hw := (Assembler.assembled hok).2.2.2
    rw [hnone] at hw
    exact Array.toList_eq_nil_iff.1 hw
  · intro e s herror
    obtain ⟨hfault, hw⟩ := Assembler.refused herror
    rw [hnone, List.prefix_nil] at hw
    exact ⟨Array.toList_eq_nil_iff.1 hw, exhausted_of_translateLines ho h hfault⟩

/-- A unit that fits, with a name that is no symbol, a static cell, a comparison and a loop; and an
offset that does not fit. -/
theorem translation_accepted_comparison :
    (∃ out t, translateLines "9 lives" { comments := true, endLoop := true, labelStart := "" }
        [.raw "push static 3", .raw "push constant 7 // seven", .raw "EQ", .raw "pop local 2"] = .ok out t ∧
      ∃ words s, assembleLines true (out.map .raw) = .ok words s ∧ s.warnings = #[]) ∧
    ∃ out t, translateLines "far" {} [.raw "push local 32768"] = .ok out t ∧
      ∃ e s, assembleLines false (out.map .raw) = .error e s ∧ s.warnings = #[] ∧
        ∃ address region location, e = Cause.at (.addressSpaceExhausted address 32768 region) location ∧
          (region = .instructions ∨ region = .address) := by
  refine ⟨?_, ?_⟩
  · obtain ⟨out, t, h⟩ := exists_ok_of_succeeded (r := translateLines "9 lives"
      { comments := true, endLoop := true, labelStart := "" }
      [.raw "push static 3", .raw "push constant 7 // seven", .raw "EQ", .raw "pop local 2"]) (by decide +kernel)
    have ho : Translator.Options.Sound { comments := true, endLoop := true, labelStart := "" } :=
      ⟨by decide, by decide, .inl rfl⟩
    have hspec := translation_accepted_iff_fits _ _ ho _ out t h true
    obtain ⟨words, s, hok⟩ := hspec.1.2 (by
      rw [(program_of_translateLines ho h).2]
      decide +kernel)
    exact ⟨out, t, h, words, s, hok, hspec.2.1 words s hok⟩
  · obtain ⟨out, t, h⟩ := exists_ok_of_succeeded (r := translateLines "far" {} [.raw "push local 32768"])
      (by decide +kernel)
    have ho : Translator.Options.Sound {} := ⟨by decide, by decide, .inr rfl⟩
    have hspec := translation_accepted_iff_fits _ _ ho _ out t h false
    cases hresult : assembleLines false (out.map .raw) with
    | ok words s =>
      have hfits := (hspec.1.1 ⟨words, s, hresult⟩).2.2 (.push .local 32768) (by decide +kernel)
      exact absurd hfits (by decide)
    | error e s => exact ⟨out, t, h, e, s, hresult, hspec.2.2 e s hresult⟩

end HackToolchain
