import HackToolchain.Proofs.Assembly
import HackToolchain.Proofs.LineOutcome
import HackToolchain.Proofs.Simulation
import Mathlib
/-!
What strictness changes. Lines of no known shape are skipped with a warning, or refused by a strict run.
A strict run and one that is not go side by side up to the first such line: if there is none they give the
same, and otherwise the strict run stops at the line that the other is the first to warn about. Commands of
the language that are not translated are skipped in both.
-/

namespace HackToolchain

/-! ## Two runs and the first line that parts them -/

/-- Whether a warning is about a line of no known shape. -/
def saysUnrecognized (warning : String) : Bool :=
  "Skipping unrecognized".toList.isPrefixOf warning.toList

/-- Only the beginning of a warning matters. -/
theorem saysUnrecognized_append {start : String} (h : "Skipping unrecognized".toList.length ≤ start.toList.length)
    (rest : String) : saysUnrecognized (start ++ rest) = saysUnrecognized start := by
  unfold saysUnrecognized
  rw [Bool.eq_iff_iff, List.isPrefixOf_iff_prefix, List.isPrefixOf_iff_prefix, String.toList_append]
  exact List.isPrefix_append_of_length h

section

variable {σ β : Type}

/-- The run has called none of the lines before this one unrecognized, and goes on to call this one so. -/
def FirstNoticed (f : Line → EStateM Failure σ β) (warnings : σ → Array String) (s : σ) (before : List Line)
    (line : Line) : Prop :=
  ∃ bs t b t' w, Traverses f s before bs t ∧ (∀ v ∈ warnings t, saysUnrecognized v = false) ∧
    f line t = .ok b t' ∧ warnings t' = (warnings t).push w ∧ saysUnrecognized w = true

/-- The run from `t` stops at the line that the run from `s` is the first to call unrecognized, with
this cause. -/
def StopsAtNotice (f : Line → EStateM Failure σ β) (warnings : σ → Array String) (cause : Line → Cause) (s t : σ)
    (lines : List Line) (e : Failure) (t' : σ) : Prop :=
  ∃ before line after bs t₁, lines = before ++ line :: after ∧ FirstNoticed f warnings s before line ∧
    Traverses f t before bs t₁ ∧ f line t₁ = .error e t' ∧ e = (cause line).at line.location

theorem StopsAtNotice.fails {f : Line → EStateM Failure σ β} {warnings : σ → Array String} {cause : Line → Cause}
    {s t t' : σ} {lines : List Line} {e : Failure} (h : StopsAtNotice f warnings cause s t lines e t') :
    Fails f t lines e t' := by
  obtain ⟨before, line, after, bs, t₁, hlines, -, hbefore, hline, -⟩ := h
  exact ⟨before, line, after, bs, t₁, hlines, hbefore, hline⟩

/-- How a strict run compares with a lax one: it gives the same if the other is quiet, it fails if the other
does, and otherwise it has been stopped and the other is not quiet. -/
inductive StrictCourse (lax strict : EStateM.Result Failure σ β) (stricter : σ → σ) (quiet : σ → Prop)
    (stopped : Failure → σ → Prop) : Prop
  | same {b : β} {s : σ} : lax = .ok b s → quiet s → strict = .ok b (stricter s) →
    StrictCourse lax strict stricter quiet stopped
  | failing {e e' : Failure} {s t : σ} : lax = .error e s → strict = .error e' t →
    StrictCourse lax strict stricter quiet stopped
  | stopped {e : Failure} {t : σ} : (∀ b s, lax = .ok b s → ¬ quiet s) → strict = .error e t → stopped e t →
    StrictCourse lax strict stricter quiet stopped

namespace StrictCourse

variable {lax strict : EStateM.Result Failure σ β} {stricter : σ → σ} {quiet : σ → Prop} {stopped : Failure → σ → Prop}
  {b : β} {s t : σ} {e : Failure}

theorem ok_iff (h : StrictCourse lax strict stricter quiet stopped) :
    strict = .ok b t ↔ ∃ s, lax = .ok b s ∧ quiet s ∧ t = stricter s := by
  cases h with
  | same hlax hquiet hstrict =>
    subst hlax hstrict
    constructor
    · intro h
      cases h
      exact ⟨_, rfl, hquiet, rfl⟩
    · intro h
      obtain ⟨_, hs, -, rfl⟩ := h
      cases hs
      rfl
  | failing hlax hstrict => simp [hlax, hstrict]
  | stopped hlax hstrict =>
    subst hstrict
    constructor
    · intro h
      cases h
    · intro h
      obtain ⟨s, hs, hquiet, -⟩ := h
      exact absurd hquiet (hlax b s hs)

theorem stopped_of_error (h : StrictCourse lax strict stricter quiet stopped) (hok : lax = .ok b s)
    (herror : strict = .error e t) : stopped e t := by
  cases h with
  | same _ _ hstrict =>
    rw [hstrict] at herror
    cases herror
  | failing hlax =>
    rw [hlax] at hok
    cases hok
  | stopped _ hstrict hstopped =>
    rw [hstrict] at herror
    cases herror
    exact hstopped

end StrictCourse

end

/-! ## Translation -/

namespace Translator

variable {s t t' : Translator} {line : Line} {lines : List Line}

/-- A line that is no command of any known shape. -/
def Unknown (line : Line) : Prop :=
  ∃ text, line.classified? = some (.ok (.unrecognized text))

theorem saysUnrecognized_unrecognizedWarning (line : Line) : saysUnrecognized (unrecognizedWarning line) = true := by
  unfold unrecognizedWarning
  rw [String.append_assoc, String.append_assoc, saysUnrecognized_append (by decide +kernel)]
  decide +kernel

theorem saysUnrecognized_unsupportedWarning (flow : Flow) (line : Line) :
    saysUnrecognized (unsupportedWarning flow line) = false := by
  unfold unsupportedWarning
  rw [String.append_assoc, String.append_assoc, String.append_assoc, String.append_assoc,
    saysUnrecognized_append (by decide +kernel)]
  decide +kernel

/-- The same run, but strict. -/
def strictly (t : Translator) : Translator :=
  { t with options := { t.options with strict := true } }

/-- The second run is the first, which is lax and has called no line unrecognized, but strict. -/
structure Stricter (s t : Translator) : Prop where
  lax : s.options.strict = false
  opened : s.finalized = false
  quiet : ∀ w ∈ s.warnings, saysUnrecognized w = false
  strictly : t = s.strictly

theorem code_strict (c : Command) (unit : String) (options : Options) (k : Nat) :
    c.code unit { options with strict := true } k = c.code unit options k := by
  cases c <;> rfl

/-- Only a line of no known shape parts a strict run from one that is not. -/
theorem matches_or_unknown (line : Line) (h : Stricter s t) :
    Matches (· = ·) Stricter (translateLine line s) (translateLine line t) ∨ Unknown line := by
  obtain ⟨hlax, hopen, hquiet, rfl⟩ := h
  have hopen' : s.strictly.finalized = false := hopen
  obtain ⟨r, hr⟩ := exists_outcome line s
  rw [hr.translateLine_eq hopen]
  cases hr with
  | blank hline =>
    have hr' : Outcome line s.strictly _ := .blank hline
    rw [hr'.translateLine_eq hopen']
    exact .inl (.ok _ ⟨hlax, hopen, hquiet, rfl⟩)
  | malformed hline =>
    have hr' : Outcome line s.strictly _ := .malformed hline
    rw [hr'.translateLine_eq hopen']
    exact .inl (.error rfl ⟨hlax, hopen, hquiet, rfl⟩)
  | @written c hline hc hfits =>
    have hr' : Outcome line s.strictly _ := .written hline hc hfits
    rw [hr'.translateLine_eq hopen', strictly, code_strict]
    exact .inl (.ok _ ⟨hlax, hopen, hquiet, rfl⟩)
  | cutShort hline hwide =>
    have hr' : Outcome line s.strictly _ := .cutShort hline hwide
    rw [hr'.translateLine_eq hopen']
    exact .inl (.error rfl ⟨hlax, hopen, hquiet, rfl⟩)
  | @unsupported flow text hline =>
    have hr' : Outcome line s.strictly _ := .unsupported hline
    rw [hr'.translateLine_eq hopen']
    refine .inl (.ok _ ⟨hlax, hopen, ?_, rfl⟩)
    intro w hw
    rcases Array.mem_push.1 hw with hw | rfl
    · exact hquiet w hw
    · exact saysUnrecognized_unsupportedWarning flow line
  | skipped hline => exact .inr ⟨_, hline⟩
  | objected hline => exact .inr ⟨_, hline⟩

/-- The warning about a line that is skipped. -/
def warning? (line : Line) : Option String :=
  match line.classified? with
  | some (.ok (.unsupported flow _)) => some (unsupportedWarning flow line)
  | some (.ok (.unrecognized _)) => some (unrecognizedWarning line)
  | _ => none

theorem warnings_of_translateLine {out : List String} (hopen : t.finalized = false)
    (h : translateLine line t = .ok out t') :
    t'.finalized = false ∧ t'.warnings.toList = t.warnings.toList ++ (warning? line).toList := by
  cases (translateLine_eq_iff hopen).1 h with
  | blank hline => exact ⟨hopen, by simp [warning?, hline]⟩
  | @written c hline hc =>
    refine ⟨hopen, ?_⟩
    cases c with
    | push | pop | arithmetic => simp [warning?, hline]
    | unsupported | unrecognized => cases hc
  | unsupported hline => exact ⟨hopen, by simp [warning?, hline]⟩
  | skipped hline => exact ⟨hopen, by simp [warning?, hline]⟩

/-- Every line that is skipped is warned about. -/
theorem warnings_of_traverses {outs : List (List String)} (hopen : t.finalized = false)
    (h : Traverses translateLine t lines outs t') :
    t'.warnings.toList = t.warnings.toList ++ lines.filterMap warning? := by
  induction h with
  | nil => simp
  | @cons s t u line lines out outs hline _ ih =>
    obtain ⟨hopen', hwarnings⟩ := warnings_of_translateLine hopen hline
    rw [ih hopen', hwarnings, List.append_assoc]
    cases hw : warning? line with
    | none => simp [hw]
    | some w => simp [hw]

/-- A line of no known shape stops a strict run, where the other warns about it. -/
theorem stopsAtNotice_of_unknown {before : List Line} {outs : List (List String)} {s₀ t₀ : Translator}
    (hs : Traverses translateLine s₀ before outs s) (ht : Traverses translateLine t₀ before outs t) (h : Stricter s t)
    (hline : Unknown line) (after : List Line) :
    ∃ t', StopsAtNotice translateLine warnings unknownCause s₀ t₀ (before ++ line :: after)
      (objection line) t' := by
  obtain ⟨hlax, hopen, hquiet, rfl⟩ := h
  obtain ⟨text, hline⟩ := hline
  have hskipped := (Outcome.skipped hline hlax).translateLine_eq hopen
  have hobjected : Outcome line s.strictly _ := .objected hline rfl
  exact ⟨_, before, line, after, outs, _, rfl,
    ⟨outs, s, _, _, _, hs, hquiet, hskipped, rfl, saysUnrecognized_unrecognizedWarning line⟩,
    ht, hobjected.translateLine_eq hopen, rfl⟩

theorem strictCourse_translateLines (name : String) (options : Options) (lines : List Line) :
    StrictCourse (translateLines name { options with strict := false } lines)
      (translateLines name { options with strict := true } lines) strictly
      (fun t => ∀ w ∈ t.warnings, saysUnrecognized w = false)
      (StopsAtNotice translateLine warnings unknownCause (start name { options with strict := false })
        (start name { options with strict := true }) lines) := by
  have hstart : Stricter (start name { options with strict := false }) (start name { options with strict := true }) :=
    ⟨rfl, rfl, by simp [start], rfl⟩
  cases sideBySide (fun line _ _ => matches_or_unknown line) lines hstart with
  | @together outs s' t' hs ht hst =>
    obtain ⟨-, -, hquiet, rfl⟩ := hst
    exact .same (translateLines_eq_ok.2 ⟨outs, s', hs, rfl, rfl⟩) hquiet
      (translateLines_eq_ok.2 ⟨outs, s'.strictly, ht, rfl, rfl⟩)
  | failing hs ht => exact .failing (translateLines_eq_error.2 hs) (translateLines_eq_error.2 ht)
  | @parting before line after outs s' t' hlines hs ht hst hline =>
    subst hlines
    obtain ⟨u, hstops⟩ := stopsAtNotice_of_unknown hs ht hst hline after
    refine .stopped ?_ (translateLines_eq_error.2 hstops.fails) hstops
    -- the line is warned about if the run that is not strict comes to its end
    intro out t hok hquiet
    obtain ⟨outs', t₁, houts', -, rfl⟩ := translateLines_eq_ok.1 hok
    obtain ⟨text, hclassified⟩ := hline
    have hwarnings := warnings_of_traverses rfl houts'
    have hmem : unrecognizedWarning line ∈ t₁.warnings.toList := by
      rw [hwarnings]
      exact List.mem_append_right _ (List.mem_filterMap.2 ⟨line, by simp, by rw [warning?, hclassified]⟩)
    have hfalse := hquiet _ (Array.mem_toList_iff.1 hmem)
    rw [saysUnrecognized_unrecognizedWarning] at hfalse
    cases hfalse

end Translator

/-! ## Assembly -/

namespace Assembler

variable {s t : Assembler} {line : Line} {lines : List Line}

/-- A line that is no instruction of any known shape. -/
def Unknown (line : Line) : Prop :=
  ∃ text, line.reading? = some (.ok (.unrecognized text))

theorem saysUnrecognized_skipWarning (text : String) (location : Option Location) :
    saysUnrecognized (skipWarning text location) = true := by
  unfold skipWarning
  rw [String.append_assoc, String.append_assoc, saysUnrecognized_append (by decide +kernel)]
  decide +kernel

/-- The same run, but strict. -/
def strictly (s : Assembler) : Assembler :=
  { s with strict := true }

/-- The first pass does not ask whether it is strict. -/
theorem matches_resolveLine_strictly (line : Line) (h : t = s.strictly) :
    Matches (· = ·) (fun s t => t = s.strictly) (resolveLine line s) (resolveLine line t) := by
  subst h
  rw [resolveLine_eq, resolveLine_eq]
  split
  · exact .ok _ rfl
  · exact .error rfl rfl
  next name hr =>
    cases hadd : s.symbols.add name s.index line.location with
    | ok table =>
      have hadd' : s.strictly.symbols.add name s.strictly.index line.location = .ok table := hadd
      simp only [hadd']
      exact .ok _ rfl
    | error e =>
      have hadd' : s.strictly.symbols.add name s.strictly.index line.location = .error e := hadd
      simp only [hadd']
      exact .error rfl rfl
  · exact .ok _ rfl
  · rw [countInstruction_eq, countInstruction_eq]
    by_cases hfull : 32768 < s.index + 1
    · rw [if_pos hfull, if_pos (show 32768 < s.strictly.index + 1 from hfull)]
      exact .error rfl rfl
    · rw [if_neg hfull, if_neg (show ¬ 32768 < s.strictly.index + 1 from hfull)]
      exact .ok _ rfl

/-- What a step has made of its symbols, put into another run. -/
def withSymbolsOf {α : Type} (s : Assembler) : EStateM.Result Failure Assembler α → EStateM.Result Failure Assembler α
  | .ok a t => .ok a { s with symbols := t.symbols }
  | .error e t => .error e { s with symbols := t.symbols }

/-- An instruction is encoded with the symbols alone, and nothing but the symbols changes. -/
theorem encode_eq_withSymbolsOf {i : Instruction} (hi : ∀ text, i ≠ .unrecognized text) (text : String)
    (location : Option Location) (s : Assembler) :
    encode text location i s = withSymbolsOf s (encode text location i { symbols := s.symbols }) := by
  cases i with
  | unrecognized other => exact absurd rfl (hi other)
  | label name => rfl
  | compute dest computation jump =>
    rw [encode_compute, encode_compute]
    cases Instruction.encodeCompute dest computation jump location <;> rfl
  | address symbol =>
    cases hnum : Text.isNumeral symbol.toList with
    | true =>
      rw [encode_literal hnum, encode_literal hnum]
      split
      · rfl
      · cases Instruction.encodeAddress (Text.numeralValue symbol.toList) location <;> rfl
    | false =>
      rw [encode_symbol hnum, encode_symbol hnum]
      cases s.symbols.getOrAllocate symbol location with
      | error e => rfl
      | ok r =>
        dsimp only
        cases Instruction.encodeAddress r.1 location <;> rfl

/-- The second run is the first, which is lax, in its second pass and has given no warning, but strict. -/
structure Stricter (s t : Assembler) : Prop where
  lax : s.strict = false
  resolved : s.resolved = true
  opened : s.finalized = false
  quiet : s.warnings = #[]
  strictly : t = s.strictly

/-- Only a line of no known shape parts a strict run from one that is not. -/
theorem matches_or_unknown (line : Line) (h : Stricter s t) :
    Matches (· = ·) Stricter (translateLine line s) (translateLine line t) ∨ Unknown line := by
  obtain ⟨hlax, hres, hopen, hquiet, rfl⟩ := h
  rw [translateLine_eq hres hopen, translateLine_eq (s := s.strictly) hres hopen]
  cases hr : line.reading? with
  | none => exact .inl (.ok _ ⟨hlax, hres, hopen, hquiet, rfl⟩)
  | some r =>
    cases r with
    | error e => exact .inl (.error rfl ⟨hlax, hres, hopen, hquiet, rfl⟩)
    | ok i =>
      by_cases hi : ∃ text, i = .unrecognized text
      · obtain ⟨text, rfl⟩ := hi
        exact .inr ⟨text, hr⟩
      · left
        have hi' : ∀ text, i ≠ .unrecognized text := fun text h => hi ⟨text, h⟩
        dsimp only
        rw [encode_eq_withSymbolsOf hi' _ _ s, encode_eq_withSymbolsOf hi' _ _ s.strictly]
        show Matches _ _ _ (withSymbolsOf s.strictly (encode line.content line.location i { symbols := s.symbols }))
        cases encode line.content line.location i { symbols := s.symbols } with
        | ok o u => exact .ok _ ⟨hlax, hres, hopen, hquiet, rfl⟩
        | error e u => exact .error rfl ⟨hlax, hres, hopen, hquiet, rfl⟩

/-- What a line of no known shape is refused for. -/
def unknownCause (line : Line) : Cause :=
  .malformedInstruction line.content Instruction.noGrammar

/-- A line of no known shape stops a strict run, where the other warns about it. -/
theorem stopsAtNotice_of_unknown {before : List Line} {os : List (Option Word)} {s₀ t₀ : Assembler}
    (hs : Traverses translateLine s₀ before os s) (ht : Traverses translateLine t₀ before os t) (h : Stricter s t)
    (hline : Unknown line) (after : List Line) :
    StopsAtNotice translateLine warnings unknownCause s₀ t₀ (before ++ line :: after)
      ((unknownCause line).at line.location) t := by
  obtain ⟨hlax, hres, hopen, hquiet, rfl⟩ := h
  obtain ⟨text, hr⟩ := hline
  have hskipped : translateLine line s =
      .ok none { s with warnings := s.warnings.push (skipWarning line.content line.location) } := by
    rw [translateLine_eq hres hopen, hr]
    dsimp only
    rw [encode_unrecognized, if_neg (by simp [hlax])]
  have hobjected : translateLine line s.strictly = .error ((unknownCause line).at line.location) s.strictly := by
    rw [translateLine_eq (s := s.strictly) hres hopen, hr]
    exact encode_unrecognized _ _ _ _
  refine ⟨before, line, after, os, s.strictly, rfl, ?_, ht, hobjected, rfl⟩
  exact ⟨os, s, none, _, _, hs, by simp [hquiet], hskipped, rfl, saysUnrecognized_skipWarning _ _⟩

theorem strictCourse_assembleLines (lines : List Line) :
    StrictCourse (assembleLines false lines) (assembleLines true lines) strictly (fun s => s.warnings = #[])
      (fun e t' => ∃ s t, resolveLabels lines { strict := false } = .ok () s ∧
        resolveLabels lines { strict := true } = .ok () t ∧
        StopsAtNotice translateLine warnings unknownCause s t lines e t') := by
  have hfirst : SideBySide resolveLine (fun s t => t = s.strictly) (fun _ => False) { strict := false }
      { strict := true } lines :=
    sideBySide (fun line _ _ h => .inl (matches_resolveLine_strictly line h)) lines rfl
  cases hfirst with
  | failing hs ht => exact .failing (assembleLines_eq_error.2 (.inl hs)) (assembleLines_eq_error.2 (.inl ht))
  | parting _ _ _ _ hfalse => exact hfalse.elim
  | @together us s t hs ht hst =>
    subst hst
    obtain ⟨-, hopen, hlax, hquiet⟩ := (resolved_of_traverses hs).frame
    have hsecond : Stricter { s with resolved := true } { s.strictly with resolved := true } :=
      ⟨hlax, rfl, hopen, hquiet, rfl⟩
    cases sideBySide (fun line _ _ => matches_or_unknown line) lines hsecond with
    | @together os s' t' hs' ht' hst' =>
      obtain ⟨-, -, -, hquiet', rfl⟩ := hst'
      exact .same (assembleLines_eq_ok.2 ⟨us, os, s, s', hs, hs', rfl, rfl⟩) hquiet'
        (assembleLines_eq_ok.2 ⟨us, os, s.strictly, s'.strictly, ht, ht', rfl, rfl⟩)
    | failing hs' ht' =>
      exact .failing (assembleLines_eq_error.2 (.inr ⟨us, s, hs, hs'⟩))
        (assembleLines_eq_error.2 (.inr ⟨us, s.strictly, ht, ht'⟩))
    | @parting before line after os s' t' hlines hs' ht' hst' hline =>
      subst hlines
      have hstops := stopsAtNotice_of_unknown hs' ht' hst' hline after
      refine .stopped ?_ (assembleLines_eq_error.2 (.inr ⟨us, s.strictly, ht, hstops.fails⟩))
        ⟨_, _, (resolveLabels_eq_ok rfl).2 ⟨us, s, hs, rfl⟩, (resolveLabels_eq_ok rfl).2 ⟨us, _, ht, rfl⟩, hstops⟩
      -- the line is warned about if the run that is not strict comes to its end
      intro words u hok hnone
      obtain ⟨text, hr⟩ := hline
      have hwarnings := (assembled hok).2.2.2
      rw [hnone] at hwarnings
      have hmem : skipWarning line.content line.location ∈ skipWarnings (before ++ line :: after) :=
        List.mem_filterMap.2 ⟨line, by simp, by rw [hr]⟩
      rw [← hwarnings] at hmem
      cases hmem

end Assembler

/-- **Strictness only refuses what is skipped otherwise.** The strict assembler takes a source exactly if the
lax one takes it without a warning, and then all they give and leave is the same. The strict translator takes
a unit exactly if the lax one takes it and calls no command unrecognized; it may warn of commands that are not
supported. If the lax run succeeds and the strict one does not, the latter has stopped at the first line that
the former calls unrecognized: the assembler for a malformed instruction, and the translator for an unknown
operation if the line is a single word and for an unrecognized command otherwise. -/
theorem strictness_only_refuses_what_is_skipped :
    (∀ lines : List Line,
      (∀ words t, assembleLines true lines = .ok words t ↔
        ∃ s, assembleLines false lines = .ok words s ∧ s.warnings = #[] ∧ t = { s with strict := true }) ∧
      ∀ words s e t', assembleLines false lines = .ok words s → assembleLines true lines = .error e t' →
        ∃ s t, Assembler.resolveLabels lines { strict := false } = .ok () s ∧
          Assembler.resolveLabels lines { strict := true } = .ok () t ∧
          StopsAtNotice Assembler.translateLine Assembler.warnings
            (fun line => .malformedInstruction line.content Instruction.noGrammar) s t lines e t') ∧
    ∀ (name : String) (options : Translator.Options) (lines : List Line),
      (∀ out t, translateLines name { options with strict := true } lines = .ok out t ↔
        ∃ s, translateLines name { options with strict := false } lines = .ok out s ∧
          (∀ w ∈ s.warnings, saysUnrecognized w = false) ∧
          t = { s with options := { s.options with strict := true } }) ∧
      ∀ out s e t, translateLines name { options with strict := false } lines = .ok out s →
        translateLines name { options with strict := true } lines = .error e t →
        StopsAtNotice Translator.translateLine Translator.warnings
          (fun line => if (Text.words line.content.toList).length = 1 then .unknownOperation line.content
            else .unrecognizedCommand line.content)
          (.start name { options with strict := false }) (.start name { options with strict := true }) lines e t := by
  refine ⟨fun lines => ?_, fun name options lines => ?_⟩
  · have hcourse := Assembler.strictCourse_assembleLines lines
    exact ⟨fun words t => hcourse.ok_iff, fun words s e t' => hcourse.stopped_of_error⟩
  · have hcourse := Translator.strictCourse_translateLines name options lines
    exact ⟨fun out t => hcourse.ok_iff, fun out s e t => hcourse.stopped_of_error⟩

/-- A unit with a command that is not supported above a word that is no command, the part of it above that
word, and a source with a line that is no instruction. -/
theorem strictness_only_refuses_what_is_skipped_jump :
    let lines : List Line := [.raw "push constant 1", .raw "label LOOP", .raw "jump // where", .raw "fly away"]
    let source : List Line := [.raw "D=1", .located "no instruction" (some (.internal 1)), .raw "0;JMP"]
    (∃ out s t, translateLines "Main" { strict := false } lines = .ok out s ∧
      translateLines "Main" { strict := true } lines = .error (Cause.at (.unknownOperation "jump") none) t ∧
      StopsAtNotice Translator.translateLine Translator.warnings
        (fun line => if (Text.words line.content.toList).length = 1 then .unknownOperation line.content
          else .unrecognizedCommand line.content)
        (.start "Main" { strict := false }) (.start "Main" { strict := true }) lines
        (Cause.at (.unknownOperation "jump") none) t) ∧
    (∃ out s, translateLines "Main" { strict := false } (lines.take 2) = .ok out s ∧
      s.warnings.toList = ["Skipping unsupported label command 'label LOOP'"] ∧
      translateLines "Main" { strict := true } (lines.take 2) =
        .ok out { s with options := { s.options with strict := true } }) ∧
    ∃ words s t, assembleLines false source = .ok words s ∧
      assembleLines true source =
        .error (Cause.at (.malformedInstruction "no instruction" Instruction.noGrammar) (some (.internal 1))) t ∧
      ∃ s t', StopsAtNotice Assembler.translateLine Assembler.warnings
        (fun line => .malformedInstruction line.content Instruction.noGrammar) s t' source
        (Cause.at (.malformedInstruction "no instruction" Instruction.noGrammar) (some (.internal 1))) t := by
  intro lines source
  obtain ⟨hassembler, htranslator⟩ := strictness_only_refuses_what_is_skipped
  refine ⟨?_, ?_, ?_⟩
  · obtain ⟨out, s, hlax⟩ := exists_ok_of_succeeded (r := translateLines "Main" { strict := false } lines)
      (by decide +kernel)
    obtain ⟨t, hstrict⟩ := exists_error_of_failure? (r := translateLines "Main" { strict := true } lines)
      (e := Cause.at (.unknownOperation "jump") none) (by decide +kernel)
    exact ⟨out, s, t, hlax, hstrict, (htranslator "Main" {} lines).2 out s _ t hlax hstrict⟩
  · obtain ⟨out, s, hlax⟩ := exists_ok_of_succeeded (r := translateLines "Main" { strict := false } (lines.take 2))
      (by decide +kernel)
    have hleft : (leftBy (translateLines "Main" { strict := false } (lines.take 2))).warnings.toList =
        ["Skipping unsupported label command 'label LOOP'"] := by
      decide +kernel
    rw [hlax] at hleft
    have hquiet : ∀ w ∈ s.warnings, saysUnrecognized w = false := by
      intro w hw
      have hw' : w ∈ ["Skipping unsupported label command 'label LOOP'"] := hleft ▸ Array.mem_toList_iff.2 hw
      rw [List.mem_singleton.1 hw']
      decide +kernel
    exact ⟨out, s, hlax, hleft, ((htranslator "Main" {} (lines.take 2)).1 out _).2 ⟨s, hlax, hquiet, rfl⟩⟩
  · obtain ⟨words, s, hlax⟩ := exists_ok_of_succeeded (r := assembleLines false source) (by decide +kernel)
    obtain ⟨t, hstrict⟩ := exists_error_of_failure? (r := assembleLines true source)
      (e := Cause.at (.malformedInstruction "no instruction" Instruction.noGrammar) (some (.internal 1)))
      (by decide +kernel)
    obtain ⟨s', t', -, -, hstops⟩ := (hassembler source).2 words s _ t hlax hstrict
    exact ⟨words, s, t, hlax, hstrict, s', t', hstops⟩

end HackToolchain
