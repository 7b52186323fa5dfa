import HackToolchain.Proofs.Assembly
import HackToolchain.Proofs.Simulation
import Mathlib
/-!
Locations do not matter. Lines with the same text are assembled alike wherever they stood, and lines
that hold nothing but blanks and comments might as well not be there: the words, the symbols and
the number of warnings are the same, and so is a failure, but for the place it names. In particular
a source can be filtered and located before it is assembled.
-/

namespace HackToolchain

/-! ## Failures without their places -/

/-- The failure, met nowhere in particular. -/
def Failure.unlocated : Failure → Failure
  | .diagnosed diagnostic => .diagnosed { diagnostic with location := none }
  | failure => failure

/-- Failures that differ at most in the place they name. -/
def Failure.Alike (e f : Failure) : Prop :=
  e.unlocated = f.unlocated

theorem Failure.Alike.at (cause : Cause) (l l' : Option Location) : Failure.Alike (cause.at l) (cause.at l') :=
  rfl

/-- A check for which it does not matter where it is made, except in what it reports. -/
def PlaceBlind (f : Option Location → Except Failure α) : Prop :=
  (∃ a, ∀ l, f l = .ok a) ∨ ∃ e : Option Location → Failure, (∀ l l', (e l).Alike (e l')) ∧ ∀ l, f l = .error (e l)

namespace PlaceBlind

theorem ok (a : α) : PlaceBlind fun _ => .ok a :=
  .inl ⟨a, fun _ => rfl⟩

theorem cause (c : Cause) : PlaceBlind (α := α) fun l => .error (c.at l) :=
  .inr ⟨_, .at c, fun _ => rfl⟩

end PlaceBlind

namespace Instruction

theorem placeBlind_classify (text : String) : PlaceBlind (classify text) := by
  unfold classify
  cases parse text with
  | ok i => exact .ok i
  | error reason => exact .cause _

theorem placeBlind_encodeAddress (address : Int) : PlaceBlind (encodeAddress address) := by
  unfold encodeAddress
  split
  · exact .ok _
  · exact .cause _

theorem placeBlind_encodeCompute (dest : Destination) (computation jump : String) :
    PlaceBlind (encodeCompute dest computation jump) := by
  unfold encodeCompute encodeComputation encodeJump
  cases Computation.ofText? computation with
  | none => exact .cause _
  | some c =>
    cases Jump.ofText? jump with
    | none => exact .cause _
    | some j => exact .ok _

end Instruction

namespace SymbolTable

theorem placeBlind_add (t : SymbolTable) (name : String) (address : Int) : PlaceBlind (t.add name address) := by
  unfold add
  split
  · exact .cause _
  · split
    · exact .ok _
    · exact .cause _

theorem placeBlind_getOrAllocate (t : SymbolTable) (name : String) : PlaceBlind (t.getOrAllocate name) := by
  unfold getOrAllocate
  split
  · exact .ok _
  · split
    · exact .ok _
    · exact .cause _

end SymbolTable

/-! ## Lines with the same text -/

namespace Line

/-- Lines with the same text are read alike. -/
theorem reading?_alike {line line' : Line} (h : line.content = line'.content) :
    line.reading? = none ∧ line'.reading? = none ∨
    (∃ i, line.reading? = some (.ok i) ∧ line'.reading? = some (.ok i)) ∨
    ∃ e e', line.reading? = some (.error e) ∧ line'.reading? = some (.error e') ∧ e.Alike e' := by
  rw [reading?, reading?, ← h]
  split
  · exact .inl ⟨rfl, rfl⟩
  · rcases Instruction.placeBlind_classify line.content with ⟨i, hi⟩ | ⟨e, he, hfail⟩
    · exact .inr (.inl ⟨i, by rw [hi], by rw [hi]⟩)
    · exact .inr (.inr ⟨_, _, by rw [hfail], by rw [hfail], he _ _⟩)

end Line

namespace Assembler

/-- Runs that have done the same and given as many warnings. -/
def Alike (s t : Assembler) : Prop :=
  ∃ warnings, warnings.size = s.warnings.size ∧ t = { s with warnings }

theorem Alike.refl (s : Assembler) : s.Alike s :=
  ⟨s.warnings, rfl, rfl⟩

/-- Runs in the first pass that have done the same. -/
def AlikeFirst (s t : Assembler) : Prop :=
  s.Alike t ∧ s.finalized = false

theorem matches_countInstruction {s t : Assembler} (hst : AlikeFirst s t) (l l' : Option Location) :
    Matches Failure.Alike AlikeFirst (countInstruction l s) (countInstruction l' t) := by
  obtain ⟨⟨warnings, hsize, rfl⟩, hpass⟩ := hst
  rw [countInstruction_eq, countInstruction_eq]
  split
  · exact .error (.at _ _ _) ⟨⟨warnings, hsize, rfl⟩, hpass⟩
  · exact .ok _ ⟨⟨warnings, hsize, rfl⟩, hpass⟩

theorem matches_resolveLine {line line' : Line} {s t : Assembler} (h : line.content = line'.content)
    (hst : AlikeFirst s t) : Matches Failure.Alike AlikeFirst (resolveLine line s) (resolveLine line' t) := by
  rw [resolveLine_eq, resolveLine_eq]
  rcases Line.reading?_alike h with ⟨hr, hr'⟩ | ⟨i, hr, hr'⟩ | ⟨e, e', hr, hr', he⟩
  · rw [hr, hr']
    exact .ok _ hst
  · rw [hr, hr']
    cases i with
    | address | compute => exact matches_countInstruction hst _ _
    | unrecognized => exact .ok _ hst
    | label name =>
      obtain ⟨⟨warnings, hsize, rfl⟩, hpass⟩ := hst
      rcases SymbolTable.placeBlind_add s.symbols name s.index with ⟨table, hadd⟩ | ⟨e, he, hadd⟩
      · simp only [hadd]
        exact .ok _ ⟨⟨warnings, hsize, rfl⟩, hpass⟩
      · simp only [hadd]
        exact .error (he _ _) ⟨⟨warnings, hsize, rfl⟩, hpass⟩
  · rw [hr, hr']
    exact .error he hst

/-- Runs in the second pass that have done the same. -/
def AlikeSecond (s t : Assembler) : Prop :=
  s.Alike t ∧ s.resolved = true ∧ s.finalized = false

theorem AlikeFirst.resolve {s t : Assembler} (h : AlikeFirst s t) :
    AlikeSecond { s with resolved := true } { t with resolved := true } := by
  obtain ⟨⟨warnings, hsize, rfl⟩, hpass⟩ := h
  exact ⟨⟨warnings, hsize, rfl⟩, rfl, hpass⟩

theorem matches_encode {s t : Assembler} (hst : AlikeSecond s t) (text : String) (l l' : Option Location)
    (i : Instruction) : Matches Failure.Alike AlikeSecond (encode text l i s) (encode text l' i t) := by
  cases i with
  | label => exact .ok _ hst
  | compute dest computation jump =>
    rw [encode_compute, encode_compute]
    rcases Instruction.placeBlind_encodeCompute dest computation jump with ⟨w, hw⟩ | ⟨e, he, hfail⟩
    · simp only [hw]
      exact .ok _ hst
    · simp only [hfail]
      exact .error (he _ _) hst
  | unrecognized other =>
    obtain ⟨⟨warnings, hsize, rfl⟩, hpass⟩ := hst
    rw [encode_unrecognized, encode_unrecognized]
    split
    · exact .error (.at _ _ _) ⟨⟨warnings, hsize, rfl⟩, hpass⟩
    · exact .ok _ ⟨⟨_, by simp [hsize], rfl⟩, hpass⟩
  | address symbol =>
    cases hnum : Text.isNumeral symbol.toList with
    | true =>
      rw [encode_literal hnum, encode_literal hnum]
      split
      · exact .error rfl hst
      · rcases Instruction.placeBlind_encodeAddress (Text.numeralValue symbol.toList) with ⟨w, hw⟩ | ⟨e, he, hfail⟩
        · simp only [hw]
          exact .ok _ hst
        · simp only [hfail]
          exact .error (he _ _) hst
    | false =>
      rw [encode_symbol hnum, encode_symbol hnum]
      obtain ⟨⟨warnings, hsize, rfl⟩, hpass⟩ := hst
      rcases SymbolTable.placeBlind_getOrAllocate s.symbols symbol with ⟨⟨address, table⟩, hget⟩ | ⟨e, he, hget⟩
      · simp only [hget]
        rcases Instruction.placeBlind_encodeAddress address with ⟨w, hw⟩ | ⟨e, he, hfail⟩
        · simp only [hw]
          exact .ok _ ⟨⟨warnings, hsize, rfl⟩, hpass⟩
        · simp only [hfail]
          exact .error (he _ _) ⟨⟨warnings, hsize, rfl⟩, hpass⟩
      · simp only [hget]
        exact .error (he _ _) ⟨⟨warnings, hsize, rfl⟩, hpass⟩

theorem matches_translateLine {line line' : Line} {s t : Assembler} (h : line.content = line'.content)
    (hst : AlikeSecond s t) : Matches Failure.Alike AlikeSecond (translateLine line s) (translateLine line' t) := by
  have ht : t.resolved = true ∧ t.finalized = false := by
    obtain ⟨⟨warnings, -, rfl⟩, hpass⟩ := hst
    exact hpass
  rw [translateLine_eq hst.2.1 hst.2.2, translateLine_eq ht.1 ht.2]
  rcases Line.reading?_alike h with ⟨hr, hr'⟩ | ⟨i, hr, hr'⟩ | ⟨e, e', hr, hr', he⟩
  · rw [hr, hr']
    exact .ok _ hst
  · rw [hr, hr']
    simp only [h]
    exact matches_encode hst _ _ _ i
  · rw [hr, hr']
    exact .error he hst

/-- Both passes in a row. -/
theorem assemble_eq (strict : Bool) (lines : List Line) :
    assemble lines { strict } = (do
      lines.forM resolveLine
      modify fun s => { s with resolved := true }
      let words ← lines.filterMapM translateLine
      finalize
      return words : Assembling (List Word)) { strict } := by
  show EStateM.bind (resolveLabels lines) _ { strict } = _
  rw [EStateM.bind, resolveLabels_eq rfl]
  exact congrFun (bind_assoc (m := Assembling) (lines.forM resolveLine) _ _) _

end Assembler

/-- The second source has the lines of the first that hold something, wherever they stand. -/
abbrev SameText : List Line → List Line → Prop :=
  Thins (fun line => line.content = "") fun line line' => line.content = line'.content

/-- **Sources with the same text are assembled alike.** -/
theorem assembleLines_sameText {lines lines' : List Line} (h : SameText lines lines') (strict : Bool) :
    Matches Failure.Alike Assembler.Alike (assembleLines strict lines) (assembleLines strict lines') := by
  have hnone : ∀ line : Line, line.content = "" → line.reading? = none := fun line hline => by
    rw [Line.reading?, if_pos hline]
  show Matches _ _ (Assembler.assemble lines { strict }) (Assembler.assemble lines' { strict })
  rw [Assembler.assemble_eq, Assembler.assemble_eq]
  have hfirst : Matches Failure.Alike Assembler.AlikeFirst (lines.forM Assembler.resolveLine { strict })
      (lines'.forM Assembler.resolveLine { strict }) := by
    refine h.forM (fun line s t hline _ => ?_) (fun _ _ _ _ => Assembler.matches_resolveLine) ⟨.refl _, rfl⟩
    rw [Assembler.resolveLine_eq, hnone line hline]
  refine hfirst.bind (fun _ _ h => h.1) fun _ s t hst => ?_
  have hsecond : Matches Failure.Alike Assembler.AlikeSecond
      (lines.filterMapM Assembler.translateLine { s with resolved := true })
      (lines'.filterMapM Assembler.translateLine { t with resolved := true }) := by
    refine h.filterMapM (fun line s t hline hst => ?_) (fun _ _ _ _ => Assembler.matches_translateLine) hst.resolve
    rw [Assembler.translateLine_eq hst.2.1 hst.2.2, hnone line hline]
  refine hsecond.bind (fun _ _ h => h.1) fun words s t hst => ?_
  obtain ⟨⟨warnings, hsize, rfl⟩, -⟩ := hst
  exact .ok _ ⟨warnings, hsize, rfl⟩

/-- A raw line with nothing but blanks and a comment. -/
def Line.HoldsNothing (line : Line) : Prop :=
  ∃ text, line = .raw text ∧ stripComment text = ""

/-- The second line is the first, a raw one that holds something, freed of its comment and located. -/
def Line.LocatedAs (line line' : Line) : Prop :=
  ∃ text location, line = .raw text ∧ stripComment text ≠ "" ∧ line' = .located (stripComment text) location

/-- Filtering a source drops the lines that hold nothing and locates the others. -/
theorem thins_meaningfulLines (file? : Option Path) (ls : List String) :
    Thins Line.HoldsNothing Line.LocatedAs (ls.map .raw) (meaningfulLines file? ls) := by
  have hfrom : ∀ n, Thins Line.HoldsNothing Line.LocatedAs (ls.map .raw) ((ls.zipIdx n).filterMap fun entry =>
      if stripComment entry.1 == "" then none
      else some (.located (stripComment entry.1) (some (.ofRow file? entry.2)))) := by
    induction ls with
    | nil => exact fun _ => .nil
    | cons l ls ih =>
      intro n
      rw [List.map_cons, List.zipIdx_cons]
      by_cases hl : stripComment l = ""
      · rw [List.filterMap_cons_none (by simp [hl])]
        exact .skip ⟨l, rfl, hl⟩ (ih _)
      · simp only [List.filterMap_cons, beq_iff_eq, if_neg hl]
        exact .keep ⟨l, _, rfl, hl, rfl⟩ (by simpa using ih _)
  exact hfrom 0

/-- Filtering the lines of a source keeps its text. -/
theorem sameText_meaningfulLines (file? : Option Path) (ls : List String) :
    SameText (ls.map .raw) (meaningfulLines file? ls) := by
  refine (thins_meaningfulLines file? ls).imp ?_ ?_
  · rintro _ ⟨text, rfl, hblank⟩
    exact hblank
  · rintro _ _ ⟨text, location, rfl, -, rfl⟩
    rfl

end HackToolchain
