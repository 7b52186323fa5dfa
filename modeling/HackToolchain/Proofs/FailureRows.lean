import HackToolchain.Proofs.Assembly
import HackToolchain.Proofs.RefusedCommands
import Mathlib
/-!
Diagnostics name the row of the first line with a fault. The lines of a source are numbered before
blank ones and comments are dropped, and every check reports the place of the line it is made for. A
pass over a source stops at the first line that it cannot take, so what it reports depends on the rows
up to that line only; the second pass of the assembler also depends on what the first has bound.
-/

namespace HackToolchain

/-! ## Rows of a source -/

/-- The line of a row, if it holds something. -/
def Line.ofRow? (file? : Option Path) (entry : String × Nat) : Option Line :=
  if stripComment entry.1 == "" then none
  else some (.located (stripComment entry.1) (some (.ofRow file? entry.2)))

theorem meaningfulLines_eq (file? : Option Path) (ls : List String) :
    meaningfulLines file? ls = ls.zipIdx.filterMap (Line.ofRow? file?) :=
  rfl

theorem Line.ofRow?_eq_some_iff {file? : Option Path} {text : String} {r : Nat} {line : Line} :
    Line.ofRow? file? (text, r) = some line ↔
      stripComment text ≠ "" ∧ line = .located (stripComment text) (some (.ofRow file? r)) := by
  by_cases h : stripComment text = ""
  · simp [Line.ofRow?, h]
  · simp only [Line.ofRow?, beq_iff_eq, if_neg h, Option.some.injEq]
    exact ⟨fun hline => ⟨h, hline.symm⟩, fun hline => hline.2.symm⟩

/-- The rows above a row that holds something, that row, and what is below it. -/
theorem meaningfulLines_append_cons (file? : Option Path) (rows rest : List String) {text : String}
    (h : stripComment text ≠ "") : ∃ after, meaningfulLines file? (rows ++ text :: rest) =
      meaningfulLines file? rows ++ .located (stripComment text) (some (.ofRow file? rows.length)) :: after := by
  have hrow : Line.ofRow? file? (text, 0 + rows.length) =
      some (.located (stripComment text) (some (.ofRow file? rows.length))) := by
    rw [Nat.zero_add]
    exact Line.ofRow?_eq_some_iff.2 ⟨h, rfl⟩
  refine ⟨(rest.zipIdx (0 + rows.length + 1)).filterMap (Line.ofRow? file?), ?_⟩
  rw [meaningfulLines_eq, List.zipIdx_append, List.filterMap_append, List.zipIdx_cons, List.filterMap_cons_some hrow,
    meaningfulLines_eq]

/-- Every line of a filtered source comes from a row, and the lines before it from the rows above. -/
theorem exists_row_of_meaningfulLines {file? : Option Path} {ls : List String} {before after : List Line} {line : Line}
    (h : meaningfulLines file? ls = before ++ line :: after) :
    ∃ rows text rest, ls = rows ++ text :: rest ∧ stripComment text ≠ "" ∧ before = meaningfulLines file? rows ∧
      line = .located (stripComment text) (some (.ofRow file? rows.length)) := by
  rw [meaningfulLines_eq, List.filterMap_eq_append_iff] at h
  obtain ⟨above, below, hls, rfl, hbelow⟩ := h
  obtain ⟨blank, entry, rest, rfl, hblank, hentry, -⟩ := List.filterMap_eq_cons_iff.1 hbelow
  rw [← List.append_assoc, List.zipIdx_eq_append_iff] at hls
  obtain ⟨rows, tail, rfl, habove, htail⟩ := hls
  obtain ⟨text, rest', rfl, rfl, -⟩ := List.zipIdx_eq_cons_iff.1 htail.symm
  rw [Nat.zero_add] at hentry
  obtain ⟨hne, rfl⟩ := Line.ofRow?_eq_some_iff.1 hentry
  refine ⟨rows, text, rest', rfl, hne, ?_, rfl⟩
  rw [meaningfulLines_eq, ← habove, List.filterMap_append, List.filterMap_eq_nil_iff.2 hblank, List.append_nil]

/-! ## Passes over a source -/

variable {ε σ β : Type} {f : Line → EStateM ε σ β} {s s' : σ} {file? : Option Path} {ls ls' : List String} {r : Nat}
  {e : ε}

/-- The step succeeds on the lines of all rows above row `r`, which holds something, and fails on the line
of this row. -/
def FailsAtRow (f : Line → EStateM ε σ β) (s : σ) (file? : Option Path) (ls : List String) (r : Nat) (e : ε) (s' : σ) :
    Prop :=
  ∃ text bs t, ls[r]? = some text ∧ stripComment text ≠ "" ∧ Traverses f s (meaningfulLines file? (ls.take r)) bs t ∧
    f (.located (stripComment text) (some (.ofRow file? r))) t = .error e s'

/-- A pass over a source that fails does so at a row. -/
theorem fails_meaningfulLines_iff :
    Fails f s (meaningfulLines file? ls) e s' ↔ ∃ r, FailsAtRow f s file? ls r e s' := by
  constructor
  · intro h
    obtain ⟨before, line, after, bs, t, hlines, hbefore, hline⟩ := h
    obtain ⟨rows, text, rest, rfl, hne, rfl, rfl⟩ := exists_row_of_meaningfulLines hlines
    exact ⟨rows.length, text, bs, t, by simp, hne, by simpa using hbefore, hline⟩
  · intro h
    obtain ⟨r, text, bs, t, htext, hne, hbefore, hline⟩ := h
    obtain ⟨hr, rfl⟩ := List.getElem?_eq_some_iff.1 htext
    have hrows : ls.take r ++ ls[r] :: ls.drop (r + 1) = ls := by
      rw [← List.drop_eq_getElem_cons hr, List.take_append_drop]
    obtain ⟨after, hlines⟩ := meaningfulLines_append_cons file? (ls.take r) (ls.drop (r + 1)) hne
    rw [hrows, List.length_take_of_le hr.le] at hlines
    exact ⟨_, _, after, bs, t, hlines, hbefore, hline⟩

/-- What is below the row where a pass fails does not matter. -/
theorem FailsAtRow.congr (h : FailsAtRow f s file? ls r e s') (hls : ls'.take (r + 1) = ls.take (r + 1)) :
    FailsAtRow f s file? ls' r e s' := by
  obtain ⟨text, bs, t, htext, hne, hbefore, hline⟩ := h
  refine ⟨text, bs, t, ?_, hne, ?_, hline⟩
  · rw [← List.getElem?_take_of_succ, hls, List.getElem?_take_of_succ, htext]
  · have hrows : ∀ ls : List String, (ls.take (r + 1)).take r = ls.take r := fun ls => by simp [List.take_take]
    rw [← hrows, hls, hrows]
    exact hbefore

/-! ## Checks report the place they are made for -/

theorem location_of_at {cause : Cause} {location : Option Location} {d : Diagnostic}
    (h : cause.at location = .diagnosed d) : d.location = location := by
  cases h
  rfl

namespace Translator

theorem location_of_translateLine {t t' : Translator} {line : Line} {d : Diagnostic} (hopen : t.finalized = false)
    (h : translateLine line t = .error (.diagnosed d) t') : d.location = line.location := by
  generalize he : Failure.diagnosed d = e at h
  obtain ⟨-, hfault⟩ := fault_of_translateLine hopen h
  cases hfault with
  | operation | command => exact location_of_at he.symm
  | width => cases he
  | grammar hgrammar =>
    cases hgrammar with
    | operands | segment => exact location_of_at he.symm
    | digits | blank => cases he

end Translator

namespace Assembler

theorem location_of_reading? {line : Line} {d : Diagnostic} (h : line.reading? = some (.error (.diagnosed d))) :
    d.location = line.location := by
  unfold Line.reading? Instruction.classify at h
  split at h
  · cases h
  · split at h
    · cases h
    · exact location_of_at (Except.error.inj (Option.some.inj h))

theorem location_of_resolveLine {s s' : Assembler} {line : Line} {d : Diagnostic}
    (h : resolveLine line s = .error (.diagnosed d) s') : d.location = line.location := by
  rw [resolveLine_eq] at h
  split at h
  · cases h
  next hr =>
    cases h
    exact location_of_reading? hr
  next name hr =>
    split at h
    · cases h
    next hadd =>
      cases h
      rcases SymbolTable.add_eq_error hadd with ⟨bound, -, he⟩ | ⟨-, -, he⟩
      · exact location_of_at he.symm
      · exact location_of_at he.symm
  · cases h
  · rw [countInstruction_eq] at h
    split at h
    · generalize he : Failure.diagnosed d = e at h
      cases h
      exact location_of_at he.symm
    · cases h

theorem location_of_encode {s s' : Assembler} {text : String} {location : Option Location} {i : Instruction}
    {d : Diagnostic} (h : encode text location i s = .error (.diagnosed d) s') : d.location = location := by
  cases i with
  | label name => cases h
  | compute dest computation jump =>
    rw [encode_compute] at h
    split at h
    · cases h
    next he =>
      cases h
      rcases encodeCompute_eq_error he with ⟨-, he⟩ | ⟨-, he⟩
      · exact location_of_at he.symm
      · exact location_of_at he.symm
  | unrecognized other =>
    rw [encode_unrecognized] at h
    split at h
    · generalize he : Failure.diagnosed d = e at h
      cases h
      exact location_of_at he.symm
    · cases h
  | address symbol =>
    by_cases hnum : Text.isNumeral symbol.toList = true
    · rw [encode_literal hnum] at h
      split at h
      · cases h
      split at h
      · cases h
      next he =>
        cases h
        exact location_of_at (encodeAddress_eq_error he).2.symm
    · rw [encode_symbol (by simpa using hnum)] at h
      split at h
      next he =>
        cases h
        exact location_of_at (SymbolTable.getOrAllocate_eq_error he).2.2.symm
      next =>
        split at h
        · cases h
        next he =>
          cases h
          exact location_of_at (encodeAddress_eq_error he).2.symm

theorem location_of_translateLine {s s' : Assembler} {line : Line} {d : Diagnostic} (hr : s.resolved = true)
    (hf : s.finalized = false) (h : translateLine line s = .error (.diagnosed d) s') : d.location = line.location := by
  rw [translateLine_eq hr hf] at h
  split at h
  · cases h
  next hreading =>
    cases h
    exact location_of_reading? hreading
  · exact location_of_encode h

end Assembler

/-! ## The row of the first faulty line -/

namespace Translator

/-- A unit is refused at a row, which the diagnostic names. -/
theorem failsAtRow_of_translateLines {name : String} {options : Options} {d : Diagnostic} {t : Translator}
    (h : translateLines name options (meaningfulLines file? ls) = .error (.diagnosed d) t) :
    ∃ r : Nat, d.location = some (.ofRow file? r) ∧
      FailsAtRow translateLine (start name options) file? ls r (.diagnosed d) t := by
  obtain ⟨r, hfails⟩ := fails_meaningfulLines_iff.1 (translateLines_eq_error.1 h)
  refine ⟨r, ?_, hfails⟩
  obtain ⟨text, outs, t₁, -, -, hbefore, hline⟩ := hfails
  have hopen : t₁.finalized = false := (spelled_of_traverses rfl rfl hbefore).frame.2.2
  exact location_of_translateLine hopen hline

/-- The rows above the one at which a unit is refused are a unit that is accepted. -/
theorem accepted_above_row {name : String} {options : Options} {e : Failure} {t : Translator}
    (h : FailsAtRow translateLine (start name options) file? ls r e t) :
    ∃ out t', translateLines name options (meaningfulLines file? (ls.take r)) = .ok out t' := by
  obtain ⟨text, outs, t₁, -, -, hbefore, -⟩ := h
  exact ⟨_, _, translateLines_eq_ok.2 ⟨outs, t₁, hbefore, rfl, rfl⟩⟩

end Translator

namespace Assembler

/-- A source is refused at a row, which the diagnostic names, by the first pass or after it. -/
theorem failsAtRow_of_assembleLines {strict : Bool} {d : Diagnostic} {s : Assembler}
    (h : assembleLines strict (meaningfulLines file? ls) = .error (.diagnosed d) s) :
    (∃ r : Nat, d.location = some (.ofRow file? r) ∧
      FailsAtRow resolveLine { strict } file? ls r (.diagnosed d) s) ∨
    ∃ t, resolveLabels (meaningfulLines file? ls) { strict } = .ok () t ∧
      ∃ r : Nat, d.location = some (.ofRow file? r) ∧ FailsAtRow translateLine t file? ls r (.diagnosed d) s := by
  rcases assembleLines_eq_error.1 h with hfirst | ⟨us, t, hfirst, hsecond⟩
  · left
    obtain ⟨r, hfails⟩ := fails_meaningfulLines_iff.1 hfirst
    refine ⟨r, ?_, hfails⟩
    obtain ⟨text, us, t, -, -, -, hline⟩ := hfails
    exact location_of_resolveLine hline
  · right
    refine ⟨{ t with resolved := true }, (resolveLabels_eq_ok rfl).2 ⟨us, t, hfirst, rfl⟩, ?_⟩
    obtain ⟨r, hfails⟩ := fails_meaningfulLines_iff.1 hsecond
    refine ⟨r, ?_, hfails⟩
    obtain ⟨text, os, u, -, -, hbefore, hline⟩ := hfails
    have hopen : t.finalized = false := (resolved_of_traverses hfirst).frame.2.1
    have hframe := (translated_of_traverses (s := { t with resolved := true }) rfl hopen hbefore).frame
    exact location_of_translateLine hframe.2.1 (hframe.2.2.1.trans hopen) hline

end Assembler

/-- **Diagnostics name the row of the first faulty line.** Let the lines of a source be filtered, for a
file or for none. If the translator then refuses them with a diagnostic, this names a row of the source:
the rows above are translated by themselves, the line of this row is refused, and every source with the
same rows down to this one is refused in the same way. If the assembler refuses them, the diagnostic names
the first row that the first pass cannot take, and every source with the same rows down to this one is refused
in the same way; or the first pass takes the whole source, and the diagnostic names the first row that
cannot be given its word. -/
theorem diagnostics_name_first_faulty_row (file? : Option Path) (ls : List String) :
    (∀ name options d t, translateLines name options (meaningfulLines file? ls) = .error (.diagnosed d) t →
      ∃ r : Nat, d.location = some (.ofRow file? r) ∧
        FailsAtRow Translator.translateLine (.start name options) file? ls r (.diagnosed d) t ∧
        (∃ out t', translateLines name options (meaningfulLines file? (ls.take r)) = .ok out t') ∧
        ∀ ls' : List String, ls'.take (r + 1) = ls.take (r + 1) →
          translateLines name options (meaningfulLines file? ls') = .error (.diagnosed d) t) ∧
    ∀ strict d s, assembleLines strict (meaningfulLines file? ls) = .error (.diagnosed d) s →
      (∃ r : Nat, d.location = some (.ofRow file? r) ∧
        FailsAtRow Assembler.resolveLine { strict } file? ls r (.diagnosed d) s ∧
        ∀ ls' : List String, ls'.take (r + 1) = ls.take (r + 1) →
          assembleLines strict (meaningfulLines file? ls') = .error (.diagnosed d) s) ∨
      ∃ t, Assembler.resolveLabels (meaningfulLines file? ls) { strict } = .ok () t ∧
        ∃ r : Nat, d.location = some (.ofRow file? r) ∧
          FailsAtRow Assembler.translateLine t file? ls r (.diagnosed d) s := by
  refine ⟨?_, ?_⟩
  · intro name options d t h
    obtain ⟨r, hrow, hfails⟩ := Translator.failsAtRow_of_translateLines h
    refine ⟨r, hrow, hfails, Translator.accepted_above_row hfails, fun ls' hls => ?_⟩
    exact Translator.translateLines_eq_error.2 (fails_meaningfulLines_iff.2 ⟨r, hfails.congr hls⟩)
  · intro strict d s h
    rcases Assembler.failsAtRow_of_assembleLines h with ⟨r, hrow, hfails⟩ | hsecond
    · refine .inl ⟨r, hrow, hfails, fun ls' hls => ?_⟩
      exact Assembler.assembleLines_eq_error.2 (.inl (fails_meaningfulLines_iff.2 ⟨r, hfails.congr hls⟩))
    · exact .inr hsecond

/-- Faults below a comment and a blank line. A line without a known computation stands above a label
that is no name, but only the second pass would mind it. -/
theorem diagnostics_name_first_faulty_row_four :
    let lines := ["// set up", "push constant 1", "", "pop constant 3 // no address", "junk"]
    let source := ["// two faults", "D=A+M", "", "(1A)", "D=M"]
    (∃ d t, translateLines "Main" {} (meaningfulLines none lines) = .error (.diagnosed d) t ∧
      d.location = some (.internal 3) ∧ ∀ rest,
        translateLines "Main" {} (meaningfulLines none (lines.take 4 ++ rest)) = .error (.diagnosed d) t) ∧
    ∃ d s, assembleLines true (meaningfulLines none source) = .error (.diagnosed d) s ∧
      d.location = some (.internal 3) ∧ ∀ rest,
        assembleLines true (meaningfulLines none (source.take 4 ++ rest)) = .error (.diagnosed d) s := by
  intro lines source
  have hrow : ∀ r : Nat, some (Location.ofRow none 3) = some (Location.ofRow none r) → r = 3 := by
    intro r h
    have hcast : (3 : Int) = r := Location.internal.inj (Option.some.inj h)
    omega
  have hagree : ∀ (ls rest : List String), ls.length = 5 → (ls.take 4 ++ rest).take 4 = ls.take 4 := by
    intro ls rest hlength
    exact List.take_left' (by simp [hlength])
  refine ⟨?_, ?_⟩
  · obtain ⟨t, h⟩ := exists_error_of_failure? (r := translateLines "Main" {} (meaningfulLines none lines))
      (e := Cause.at (.invalidOperands "pop constant 3" Command.constantNotAddressable) (some (.internal 3)))
      (by decide +kernel)
    obtain ⟨r, hlocation, -, -, hsame⟩ := (diagnostics_name_first_faulty_row none lines).1 _ _ _ _ h
    obtain rfl := hrow r hlocation
    exact ⟨_, t, h, rfl, fun rest => hsame _ (hagree lines rest rfl)⟩
  · have hfirst : failure? (Assembler.resolveLabels (meaningfulLines none source) { strict := true }) =
        some (Cause.at (.malformedInstruction "(1A)" Instruction.badLabel) (some (.internal 3))) := by
      decide +kernel
    obtain ⟨s, h⟩ := exists_error_of_failure? (r := assembleLines true (meaningfulLines none source))
      (e := Cause.at (.malformedInstruction "(1A)" Instruction.badLabel) (some (.internal 3)))
      (by decide +kernel)
    rcases (diagnostics_name_first_faulty_row none source).2 _ _ _ h with ⟨r, hlocation, -, hsame⟩ | ⟨t, hok, -⟩
    · obtain rfl := hrow r hlocation
      exact ⟨_, s, h, rfl, fun rest => hsame _ (hagree source rest rfl)⟩
    · rw [hok] at hfirst
      cases hfirst

end HackToolchain
