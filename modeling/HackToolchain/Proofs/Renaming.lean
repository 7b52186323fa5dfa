import HackToolchain.Proofs.LocatedLines
import Mathlib
/-!
Names do not matter. Two sources whose symbols correspond to one another one to one, the predefined
ones each to itself, are assembled alike: into the same words and into tables whose entries
correspond, or both are refused for the same reason, but for the names that the reports quote.
-/

namespace HackToolchain

/-! ## Failures without names -/

/-- The cause, without the texts in which symbols can occur. -/
def Cause.nameless : Cause → Cause
  | malformedInstruction _ reason => malformedInstruction "" reason
  | duplicateLabel _ boundTo => duplicateLabel "" boundTo
  | cause => cause

/-- The failure, without its place and without the texts in which symbols can occur. What is left is
the kind of the failure, and every number and region that it names. -/
def Failure.nameless : Failure → Failure
  | .diagnosed diagnostic => .diagnosed ⟨diagnostic.cause.nameless, none⟩
  | failure => failure

/-- Failures of one kind. -/
def Failure.SameKind (e f : Failure) : Prop :=
  e.nameless = f.nameless

theorem Failure.SameKind.refl (e : Failure) : e.SameKind e :=
  Eq.refl e.nameless

theorem Failure.Alike.sameKind {e f : Failure} (h : e.Alike f) : e.SameKind f := by
  have hforget : ∀ g : Failure, g.unlocated.nameless = g.nameless := fun g => by cases g <;> rfl
  rw [SameKind, ← hforget e, ← hforget f, show e.unlocated = f.unlocated from h]

/-! ## Tables -/

/-- A correspondence of names, one to one, that keeps the predefined ones. -/
structure NameMap (R : String → String → Prop) : Prop where
  unique : Relator.BiUnique R
  predefined : ∀ name ∈ predefinedNames, R name name

/-- The same bindings in the same order, under names that correspond. -/
def SymbolTable.Renamed (R : String → String → Prop) (t t' : SymbolTable) : Prop :=
  List.Forall₂ (fun b b' => R b.1 b'.1 ∧ b.2 = b'.2) t.toList t'.toList ∧ t.next = t'.next

theorem binding?_renamed {R : String → String → Prop} (hR : Relator.BiUnique R) {xs ys : List (String × Int)}
    (h : List.Forall₂ (fun b b' => R b.1 b'.1 ∧ b.2 = b'.2) xs ys) {name name' : String} (hn : R name name') :
    binding? name xs = binding? name' ys := by
  induction h with
  | nil => rfl
  | @cons b b' xs ys hb _ ih =>
    obtain ⟨n, address⟩ := b
    obtain ⟨n', address'⟩ := b'
    obtain ⟨hb, rfl⟩ : R n n' ∧ address = address' := hb
    have hiff : n = name ↔ n' = name' := by
      constructor
      · rintro rfl
        exact hR.2 hb hn
      · rintro rfl
        exact hR.1 hb hn
    simp only [binding?, hiff, ih]

namespace SymbolTable.Renamed

variable {R : String → String → Prop} {t t' u u' : SymbolTable} {name name' : String} {address : Int}

theorem get?_eq (h : t.Renamed R t') (hR : Relator.BiUnique R) (hn : R name name') : t.get? name = t'.get? name' := by
  rw [SymbolTable.get?_eq, SymbolTable.get?_eq, binding?_renamed hR h.1 hn]

theorem concat (h : t.Renamed R t') (hn : R name name') (hu : u.toList = t.toList ++ [(name, address)])
    (hu' : u'.toList = t'.toList ++ [(name', address)]) (hnext : u.next = u'.next) : u.Renamed R u' := by
  refine ⟨?_, hnext⟩
  rw [hu, hu']
  exact List.rel_append h.1 (.cons ⟨hn, rfl⟩ .nil)

theorem predefined (hR : NameMap R) : SymbolTable.predefined.Renamed R SymbolTable.predefined := by
  refine ⟨?_, rfl⟩
  rw [toList_predefined]
  exact List.forall₂_same.2 fun b hb => ⟨hR.predefined b.1 (List.mem_map_of_mem hb), rfl⟩

end SymbolTable.Renamed

/-! ## Lines -/

/-- The same instruction, about a symbol that corresponds. A literal stays what it is. -/
inductive Instruction.Renamed (R : String → String → Prop) : Instruction → Instruction → Prop
  | literal {symbol : String} : Text.isNumeral symbol.toList = true → Renamed R (.address symbol) (.address symbol)
  | symbol {symbol symbol' : String} : Text.isNumeral symbol.toList = false → Text.isNumeral symbol'.toList = false →
    R symbol symbol' → Renamed R (.address symbol) (.address symbol')
  | label {name name' : String} : R name name' → Renamed R (.label name) (.label name')
  | compute (dest : Destination) (computation jump : String) :
    Renamed R (.compute dest computation jump) (.compute dest computation jump)
  | unrecognized (text text' : String) : Renamed R (.unrecognized text) (.unrecognized text')

/-- Lines that are read as corresponding instructions, or refused for one reason. -/
inductive Line.Renamed (R : String → String → Prop) (line line' : Line) : Prop
  | blank : line.reading? = none → line'.reading? = none → Renamed R line line'
  | read {i i' : Instruction} : line.reading? = some (.ok i) → line'.reading? = some (.ok i') → i.Renamed R i' →
    Renamed R line line'
  | refused {e e' : Failure} : line.reading? = some (.error e) → line'.reading? = some (.error e') → e.SameKind e' →
    Renamed R line line'

namespace Assembler

/-- Runs that have done the same under names that correspond, and are in the first or the second
pass. -/
structure Renamed (R : String → String → Prop) (resolved : Bool) (s t : Assembler) : Prop where
  symbols : s.symbols.Renamed R t.symbols
  index : s.index = t.index
  strict : s.strict = t.strict
  resolved : s.resolved = resolved ∧ t.resolved = resolved
  finalized : s.finalized = false ∧ t.finalized = false

variable {R : String → String → Prop} {resolved : Bool} {s t : Assembler} {line line' : Line}

theorem matches_countInstruction_renamed (h : s.Renamed R resolved t) (l l' : Option Location) :
    Matches Failure.SameKind (Renamed R resolved) (countInstruction l s) (countInstruction l' t) := by
  have hcounted : Renamed R resolved { s with index := s.index + 1 } { t with index := t.index + 1 } :=
    { h with index := congrArg (· + 1) h.index }
  rw [countInstruction_eq, countInstruction_eq, ← h.index]
  rw [← h.index] at hcounted
  split
  · exact .error rfl hcounted
  · exact .ok _ hcounted

theorem matches_bindLabel_renamed (hR : Relator.BiUnique R) (h : s.Renamed R resolved t) {name name' : String}
    (hn : R name name') (hline : line.reading? = some (.ok (.label name)))
    (hline' : line'.reading? = some (.ok (.label name'))) :
    Matches Failure.SameKind (Renamed R resolved) (resolveLine line s) (resolveLine line' t) := by
  rw [resolveLine_eq, resolveLine_eq, hline, hline']
  dsimp only
  rw [← h.index]
  have hget := h.symbols.get?_eq hR hn
  cases hbound : s.symbols.get? name with
  | some bound =>
    rw [SymbolTable.add_of_bound hbound, SymbolTable.add_of_bound (hget ▸ hbound)]
    exact .error rfl h
  | none =>
    rcases SymbolTable.add_of_free hbound s.index line.location with ⟨hle, hlt, u, hadd, hu, hnext⟩ | ⟨hrange, hadd⟩
    · rcases SymbolTable.add_of_free (hget ▸ hbound) s.index line'.location with
        ⟨-, -, u', hadd', hu', hnext'⟩ | ⟨hrange, -⟩
      · rw [hadd, hadd']
        have hbound := h.symbols.concat hn hu hu' (by rw [hnext, hnext', h.symbols.2])
        exact .ok _ ⟨hbound, rfl, h.strict, h.resolved, h.finalized⟩
      · exact absurd ⟨hle, hlt⟩ hrange
    · rcases SymbolTable.add_of_free (hget ▸ hbound) s.index line'.location with ⟨hle, hlt, -⟩ | ⟨-, hadd'⟩
      · exact absurd ⟨hle, hlt⟩ hrange
      · rw [hadd, hadd']
        exact .error rfl h

theorem matches_resolveLine_renamed (hR : Relator.BiUnique R) (hl : line.Renamed R line') (h : s.Renamed R resolved t) :
    Matches Failure.SameKind (Renamed R resolved) (resolveLine line s) (resolveLine line' t) := by
  cases hl with
  | blank hr hr' =>
    rw [resolveLine_eq, resolveLine_eq, hr, hr']
    exact .ok _ h
  | refused hr hr' he =>
    rw [resolveLine_eq, resolveLine_eq, hr, hr']
    exact .error he h
  | read hr hr' hi =>
    cases hi with
    | label hn => exact matches_bindLabel_renamed hR h hn hr hr'
    | literal | symbol | compute =>
      rw [resolveLine_eq, resolveLine_eq, hr, hr']
      exact matches_countInstruction_renamed h _ _
    | unrecognized =>
      rw [resolveLine_eq, resolveLine_eq, hr, hr']
      exact .ok _ h

theorem matches_encode_symbol_renamed (hR : Relator.BiUnique R) (h : s.Renamed R resolved t) {symbol symbol' : String}
    (hnum : Text.isNumeral symbol.toList = false) (hnum' : Text.isNumeral symbol'.toList = false)
    (hn : R symbol symbol') (text text' : String) (l l' : Option Location) :
    Matches Failure.SameKind (Renamed R resolved) (encode text l (.address symbol) s)
      (encode text' l' (.address symbol') t) := by
  rw [encode_symbol hnum, encode_symbol hnum']
  have hget := h.symbols.get?_eq hR hn
  cases hbound : s.symbols.get? symbol with
  | some bound =>
    rw [SymbolTable.getOrAllocate_of_bound hbound, SymbolTable.getOrAllocate_of_bound (hget ▸ hbound)]
    rcases Instruction.placeBlind_encodeAddress bound with ⟨w, hw⟩ | ⟨e, he, hfail⟩
    · simp only [hw]
      exact .ok _ h
    · simp only [hfail]
      exact .error (he _ _).sameKind h
  | none =>
    have hfree : t.symbols.get? symbol' = none := hget ▸ hbound
    have hnext := h.symbols.2
    by_cases hlt : s.symbols.next < 16384
    · obtain ⟨u, hallocate, hu, hunext⟩ := SymbolTable.getOrAllocate_of_free hbound hlt l
      obtain ⟨u', hallocate', hu', hunext'⟩ := SymbolTable.getOrAllocate_of_free hfree (hnext ▸ hlt) l'
      rw [← hnext] at hallocate' hu' hunext'
      have hlater : Renamed R resolved { s with symbols := u } { t with symbols := u' } :=
        { h with symbols := h.symbols.concat hn hu hu' (hunext.trans hunext'.symm) }
      rw [hallocate, hallocate']
      rcases Instruction.placeBlind_encodeAddress s.symbols.next with ⟨w, hw⟩ | ⟨e, he, hfail⟩
      · simp only [hw]
        exact .ok _ hlater
      · simp only [hfail]
        exact .error (he _ _).sameKind hlater
    · rw [SymbolTable.getOrAllocate_of_full hbound hlt, SymbolTable.getOrAllocate_of_full hfree (hnext ▸ hlt), hnext]
      exact .error rfl h

theorem matches_encode_renamed (hR : Relator.BiUnique R) {i i' : Instruction} (hi : i.Renamed R i')
    (h : s.Renamed R resolved t) (text text' : String) (l l' : Option Location) :
    Matches Failure.SameKind (Renamed R resolved) (encode text l i s) (encode text' l' i' t) := by
  cases hi with
  | label => exact .ok _ h
  | symbol hnum hnum' hn => exact matches_encode_symbol_renamed hR h hnum hnum' hn _ _ _ _
  | @literal symbol hnum =>
    rw [encode_literal hnum, encode_literal hnum]
    split
    · exact .error (.refl _) h
    · rcases Instruction.placeBlind_encodeAddress (Text.numeralValue symbol.toList) with ⟨w, hw⟩ | ⟨e, he, hfail⟩
      · simp only [hw]
        exact .ok _ h
      · simp only [hfail]
        exact .error (he _ _).sameKind h
  | compute dest computation jump =>
    rw [encode_compute, encode_compute]
    rcases Instruction.placeBlind_encodeCompute dest computation jump with ⟨w, hw⟩ | ⟨e, he, hfail⟩
    · simp only [hw]
      exact .ok _ h
    · simp only [hfail]
      exact .error (he _ _).sameKind h
  | unrecognized other other' =>
    rw [encode_unrecognized, encode_unrecognized, ← h.strict]
    split
    · exact .error rfl h
    · exact .ok _ ⟨h.symbols, h.index, rfl, h.resolved, h.finalized⟩

theorem matches_translateLine_renamed (hR : Relator.BiUnique R) (hl : line.Renamed R line') (h : s.Renamed R true t) :
    Matches Failure.SameKind (Renamed R true) (translateLine line s) (translateLine line' t) := by
  rw [translateLine_eq h.resolved.1 h.finalized.1, translateLine_eq h.resolved.2 h.finalized.2]
  cases hl with
  | blank hr hr' =>
    rw [hr, hr']
    exact .ok _ h
  | refused hr hr' he =>
    rw [hr, hr']
    exact .error he h
  | read hr hr' hi =>
    rw [hr, hr']
    exact matches_encode_renamed hR hi h _ _ _ _

end Assembler

theorem Thins.of_forall₂ {α : Type} {same : α → α → Prop} {xs ys : List α} (h : List.Forall₂ same xs ys) :
    Thins (fun _ => False) same xs ys := by
  induction h with
  | nil => exact .nil
  | cons hxy _ ih => exact .keep hxy ih

/-- **Sources whose symbols correspond are assembled alike.** -/
theorem assembleLines_renamed {R : String → String → Prop} (hR : NameMap R) {lines lines' : List Line}
    (h : List.Forall₂ (Line.Renamed R) lines lines') (strict : Bool) :
    Matches Failure.SameKind (fun s t => s.symbols.Renamed R t.symbols) (assembleLines strict lines)
      (assembleLines strict lines') := by
  have hthins := Thins.of_forall₂ h
  show Matches _ _ (Assembler.assemble lines { strict }) (Assembler.assemble lines' { strict })
  rw [Assembler.assemble_eq, Assembler.assemble_eq]
  have hfirst : Matches Failure.SameKind (Assembler.Renamed R false) (lines.forM Assembler.resolveLine { strict })
      (lines'.forM Assembler.resolveLine { strict }) :=
    hthins.forM (fun _ _ _ hskip _ => hskip.elim)
      (fun _ _ _ _ hline hst => Assembler.matches_resolveLine_renamed hR.unique hline hst)
      ⟨.predefined hR, rfl, rfl, ⟨rfl, rfl⟩, ⟨rfl, rfl⟩⟩
  refine hfirst.bind (fun _ _ hst => hst.symbols) fun _ s t hst => ?_
  have hsecond : Matches Failure.SameKind (Assembler.Renamed R true)
      (lines.filterMapM Assembler.translateLine { s with resolved := true })
      (lines'.filterMapM Assembler.translateLine { t with resolved := true }) :=
    hthins.filterMapM (fun _ _ _ hskip _ => hskip.elim)
      (fun _ _ _ _ hline hst => Assembler.matches_translateLine_renamed hR.unique hline hst)
      { hst with resolved := ⟨rfl, rfl⟩ }
  exact hsecond.bind (fun _ _ hst => hst.symbols) fun _ _ _ hst => .ok _ hst.symbols

end HackToolchain
