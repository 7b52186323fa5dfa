import HackToolchain.Proofs.LineOutcome
import Mathlib
/-!
A rejected command leaves no code behind. A translator takes one line after another, whatever became
of the lines before; a line that is refused for its text leaves at most a remark in the buffer. So the
translator is at all times what it would be had it been given the accepted lines only, but for remarks
that wait in the buffer, and they come out with the next line that is accepted.
-/

namespace HackToolchain

/-! ## Remarks -/

/-- A line of assembly that begins as comments do. -/
def isRemark (line : String) : Bool :=
  ['/', '/'].isPrefixOf line.toList

/-- The lines of assembly that are no remarks. -/
def withoutRemarks (lines : List String) : List String :=
  lines.filter (!isRemark ·)

theorem withoutRemarks_append (lines more : List String) :
    withoutRemarks (lines ++ more) = withoutRemarks lines ++ withoutRemarks more :=
  List.filter_append ..

theorem withoutRemarks_eq_nil {lines : List String} (h : ∀ l ∈ lines, isRemark l = true) :
    withoutRemarks lines = [] := by
  simpa [withoutRemarks, List.filter_eq_nil_iff] using h

/-- Nothing but remarks is dropped from lines that spell code. -/
theorem Spells.withoutRemarks_eq {out : List String} {code : List Instruction} (h : Spells out code)
    (hcode : ∀ i ∈ code, isRemark i.render = false) : withoutRemarks out = code.map Instruction.render := by
  induction h with
  | nil => rfl
  | remark text _ ih =>
    rw [withoutRemarks, List.filter_cons_of_neg (by simp [isRemark])]
    exact ih hcode
  | instruction i _ ih =>
    obtain ⟨hi, hcode⟩ := List.forall_mem_cons.1 hcode
    rw [withoutRemarks, List.filter_cons_of_pos (by simp [hi]), List.map_cons]
    exact congrArg _ (ih hcode)

namespace Instruction

@[simp] theorem isRemark_address (symbol : String) : isRemark (address symbol).render = false := by
  simp [isRemark, render, List.isPrefixOf]

@[simp] theorem isRemark_label (name : String) : isRemark (label name).render = false := by
  simp [isRemark, render, List.isPrefixOf]

/-- What is stored begins with the name of a register. -/
theorem isRemark_store {dest : Destination} (h : dest ≠ .none) (computation jump : String) :
    isRemark (compute dest computation jump).render = false := by
  obtain ⟨a, d, m⟩ := dest
  cases a <;> cases d <;> cases m <;> simp_all [isRemark, render, List.isPrefixOf, Destination.letters, Destination.none]

end Instruction

namespace Translator

@[simp] theorem isRemark_load (symbol : String) : isRemark (load symbol).render = false :=
  Instruction.isRemark_address symbol

@[simp] theorem isRemark_setA (computation : String) : isRemark (setA computation).render = false :=
  Instruction.isRemark_store (by decide) computation ""

@[simp] theorem isRemark_setD (computation : String) : isRemark (setD computation).render = false :=
  Instruction.isRemark_store (by decide) computation ""

@[simp] theorem isRemark_setM (computation : String) : isRemark (setM computation).render = false :=
  Instruction.isRemark_store (by decide) computation ""

theorem isRemark_code (unit : String) (options : Options) (k : Nat) (c : Command) :
    ∀ i ∈ c.code unit options k, isRemark i.render = false := by
  have hjump : ∀ jump, isRemark (jumpIf "D" jump).render = false ∧ isRemark (jumpIf "0" jump).render = false := by
    intro jump
    simp [isRemark, jumpIf, Instruction.render, List.isPrefixOf]
  cases c with
  | push segment offset =>
    rw [Command.code]
    cases access unit options segment offset <;> simp [pushCode, pointTo, pushD]
  | pop segment offset =>
    rw [Command.code]
    cases access unit options segment offset <;> simp [popCode, pointTo, popD]
  | arithmetic operation =>
    cases operation <;>
      simp [Command.code, operationCode, Operation.binary?, Operation.unary?, Operation.comparison?, comparisonCode, popD,
        pointToTop, hjump]
  | unsupported | unrecognized => exact List.forall_mem_nil _

theorem isRemark_codeFrom (unit : String) (options : Options) (k : Nat) (cs : List Command) :
    ∀ i ∈ codeFrom unit options k cs, isRemark i.render = false := by
  induction cs generalizing k with
  | nil => exact List.forall_mem_nil _
  | cons c cs ih => exact List.forall_mem_append.2 ⟨isRemark_code unit options k c, ih _⟩

theorem isRemark_of_mem_remarks {options : Options} {text l : String} (h : l ∈ remarks options text) :
    isRemark l = true := by
  rw [eq_of_mem_remarks h]
  simp [isRemark]

variable {t t' : Translator} {line : Line} {lines : List Line} {out : List String}

/-! ## One line -/

/-- The translator as it would be if nothing had been refused since the last line that was accepted. -/
def cleared (t : Translator) : Translator :=
  { t with buffer := #[] }

/-- A line that is accepted is accepted with the buffer cleared, too, and the code is the same. -/
theorem accepted_cleared (hopen : t.finalized = false) (hbuffer : ∀ l ∈ t.buffer.toList, isRemark l = true)
    (h : translateLine line t = .ok out t') :
    t'.finalized = false ∧ (∀ l ∈ t'.buffer.toList, isRemark l = true) ∧ ∃ out',
      translateLine line t.cleared = .ok out' t'.cleared ∧ withoutRemarks out = withoutRemarks out' := by
  have hcode : ∀ code, withoutRemarks (t.handedOut line code) = withoutRemarks (t.cleared.handedOut line code) := by
    intro code
    simp only [handedOut, List.append_assoc, withoutRemarks_append, withoutRemarks_eq_nil hbuffer]
    rfl
  cases (translateLine_eq_iff hopen).1 h with
  | blank hline => exact ⟨hopen, hbuffer, [], Outcome.translateLine_eq (t := t.cleared) hopen (.blank hline), rfl⟩
  | written hline hc hfits =>
    have hclear := Outcome.written (t := t.cleared) hline hc hfits
    exact ⟨hopen, List.forall_mem_nil _, _, hclear.translateLine_eq hopen, hcode _⟩
  | unsupported hline =>
    have hclear := Outcome.unsupported (t := t.cleared) hline
    exact ⟨hopen, List.forall_mem_nil _, _, hclear.translateLine_eq hopen, hcode _⟩
  | skipped hline hstrict =>
    have hclear := Outcome.skipped (t := t.cleared) hline hstrict
    exact ⟨hopen, List.forall_mem_nil _, _, hclear.translateLine_eq hopen, hcode _⟩

/-- A line that is refused for its text leaves at most a remark. -/
theorem rejected_cleared (hopen : t.finalized = false) (hbuffer : ∀ l ∈ t.buffer.toList, isRemark l = true)
    {d : Diagnostic} (h : translateLine line t = .error (.diagnosed d) t') :
    t'.finalized = false ∧ (∀ l ∈ t'.buffer.toList, isRemark l = true) ∧ t'.cleared = t.cleared := by
  generalize hr : Failure.diagnosed d = e at h
  cases (translateLine_eq_iff hopen).1 h with
  | malformed hline => exact ⟨hopen, hbuffer, rfl⟩
  | cutShort => cases hr
  | objected hline hstrict =>
    refine ⟨hopen, ?_, rfl⟩
    rw [Array.toList_appendList]
    exact List.forall_mem_append.2 ⟨hbuffer, fun l hl => isRemark_of_mem_remarks hl⟩

/-! ## All lines -/

/-- Whatever lines are refused for their text, the translator goes on from the accepted ones. -/
theorem traverses_accepted (hopen : t.finalized = false) (hbuffer : ∀ l ∈ t.buffer.toList, isRemark l = true)
    (h : ∀ e ∈ failures translateLine t lines, ∃ d, e = .diagnosed d) :
    (∀ l ∈ (leftAfter translateLine t lines).buffer.toList, isRemark l = true) ∧ ∃ outs,
      Traverses translateLine t.cleared ((returned translateLine t lines).map Prod.fst) outs
        (leftAfter translateLine t lines).cleared ∧
      withoutRemarks ((returned translateLine t lines).map Prod.snd).flatten = withoutRemarks outs.flatten := by
  induction lines generalizing t with
  | nil => exact ⟨hbuffer, [], .nil _, rfl⟩
  | cons line lines ih =>
    rw [leftAfter_cons]
    cases hline : translateLine line t with
    | ok out t' =>
      rw [failures_cons_ok hline] at h
      obtain ⟨hopen', hbuffer', out', hclear, hcode⟩ := accepted_cleared hopen hbuffer hline
      obtain ⟨hrest, outs, houts, hcodes⟩ := ih hopen' hbuffer' h
      rw [returned_cons_ok hline]
      refine ⟨hrest, out' :: outs, .cons hclear houts, ?_⟩
      rw [List.flatten_cons, List.map_cons, List.flatten_cons, withoutRemarks_append, withoutRemarks_append, hcode, hcodes]
    | error e t' =>
      rw [failures_cons_error hline] at h
      obtain ⟨⟨d, rfl⟩, hfailures⟩ := List.forall_mem_cons.1 h
      obtain ⟨hopen', hbuffer', hclear⟩ := rejected_cleared hopen hbuffer hline
      rw [returned_cons_error hline, ← hclear]
      exact ih hopen' hbuffer' hfailures

/-- **A rejected command leaves no code behind.** A fresh translator is given lines one after another,
and each of them is accepted or refused for its text. After every one of them the buffer holds nothing
but remarks, and as many comparisons are counted as stand on the lines that were accepted. A fresh
translator that is given only the accepted lines accepts them all; what both hand out is the same but
for remarks, and it is the code of the commands on these lines. -/
theorem rejected_commands_leave_no_code (name : String) (options : Options) (lines : List Line)
    (h : ∀ e ∈ failures translateLine (start name options) lines, ∃ d, e = .diagnosed d) :
    (∀ before after, lines = before ++ after →
      let t := leftAfter translateLine (start name options) before
      let calls := returned translateLine (start name options) before
      (∀ l ∈ t.buffer.toList, isRemark l = true) ∧ t.labels = comparisons (commands (calls.map Prod.fst))) ∧
    let calls := returned translateLine (start name options) lines
    ∃ outs t, (calls.map Prod.fst).mapM translateLine (start name options) = .ok outs t ∧
      withoutRemarks (calls.map Prod.snd).flatten = withoutRemarks outs.flatten ∧
      withoutRemarks outs.flatten =
        (codeFrom t.name options 0 (commands (calls.map Prod.fst))).map Instruction.render := by
  have hrun : ∀ before after, lines = before ++ after → _ := fun before after hlines =>
    have hbefore : ∀ e ∈ failures translateLine (start name options) before, ∃ d, e = .diagnosed d := fun e he =>
      h e (by rw [hlines, failures_append]; exact List.mem_append_left _ he)
    traverses_accepted rfl (List.forall_mem_nil _) hbefore
  refine ⟨?_, ?_⟩
  · intro before after hlines
    obtain ⟨hbuffer, outs, houts, -⟩ := hrun before after hlines
    have hspelled := spelled_of_traverses rfl rfl houts
    exact ⟨hbuffer, hspelled.labels.trans (Nat.zero_add _)⟩
  · obtain ⟨-, outs, houts, hcode⟩ := hrun lines [] (List.append_nil _).symm
    have hspelled := spelled_of_traverses rfl rfl houts
    refine ⟨outs, _, mapM_eq_ok.2 houts, hcode, ?_⟩
    rw [hspelled.frame.1]
    exact hspelled.spells.withoutRemarks_eq (isRemark_codeFrom _ _ _ _)

/-- Two comparisons with refused lines around them, under options that keep the remarks of these lines:
one of them comes out with the second comparison, the other waits in the buffer. -/
theorem rejected_commands_leave_no_code_strict :
    let fresh := start "Main" { comments := true, strict := true }
    let lines : List Line := [.raw "eq", .raw "jump", .raw "pop constant 1", .raw "lt // less",
      .located "jump far" (some (.internal 4)), .raw "// done"]
    let t := leftAfter translateLine fresh lines
    let calls := returned translateLine fresh lines
    (∀ e ∈ failures translateLine fresh lines, ∃ d, e = .diagnosed d) ∧
      t.buffer.toList = ["// jump far"] ∧ t.labels = 2 ∧
      calls.map Prod.fst = [.raw "eq", .raw "lt // less", .raw "// done"] ∧
      (calls.map Prod.snd).flatten.filter isRemark = ["// eq", "// jump", "// lt"] ∧
      (∀ l ∈ t.buffer.toList, isRemark l = true) ∧ t.labels = comparisons (commands (calls.map Prod.fst)) ∧
      ∃ outs t, (calls.map Prod.fst).mapM translateLine fresh = .ok outs t ∧
        withoutRemarks (calls.map Prod.snd).flatten = withoutRemarks outs.flatten := by
  intro fresh lines
  have hfailures : failures translateLine fresh lines = [
      Cause.at (.unknownOperation "jump") none,
      Cause.at (.invalidOperands "pop constant 1" Command.constantNotAddressable) none,
      Cause.at (.unrecognizedCommand "jump far") (some (.internal 4))] := by
    decide +kernel
  have hdiagnosed : ∀ e ∈ failures translateLine fresh lines, ∃ d, e = .diagnosed d := by
    rw [hfailures]
    simp [Cause.at]
  obtain ⟨hbetween, outs, t', houts, hcode, -⟩ :=
    rejected_commands_leave_no_code "Main" { comments := true, strict := true } lines hdiagnosed
  obtain ⟨hbuffer, hlabels⟩ := hbetween lines [] (List.append_nil _).symm
  have hwaiting : (leftAfter translateLine fresh lines).buffer.toList = ["// jump far"] := by decide +kernel
  have hcounted : (leftAfter translateLine fresh lines).labels = 2 := by decide +kernel
  have haccepted : (returned translateLine fresh lines).map Prod.fst =
      [.raw "eq", .raw "lt // less", .raw "// done"] := by decide +kernel
  have hremarks : ((returned translateLine fresh lines).map Prod.snd).flatten.filter isRemark =
      ["// eq", "// jump", "// lt"] := by decide +kernel
  exact ⟨hdiagnosed, hwaiting, hcounted, haccepted, hremarks, hbuffer, hlabels, outs, t', houts, hcode⟩

end Translator

end HackToolchain
