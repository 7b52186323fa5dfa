import HackToolchain.Proofs.Assembly
import HackToolchain.Proofs.MachineCode
import HackToolchain.Proofs.SymbolTableCalls
import Mathlib
/-!
Whole runs of an assembler, whatever is called on it and in whatever order. A call is a sequence of
acts that stops at the first that fails; an act binds at most one name, and acts only ever add to the
symbols and to what has been done. The history of a run lists every act with the state it was done in,
also the acts of calls that failed in the end. Along every history labels come before variables, a
name keeps its address, and words are given only after the first pass and before the run ends.
-/

namespace HackToolchain.Assembler

/-! ## Calls and the acts they consist of -/

/-- A call on an assembler. -/
inductive Call where
  | resolveLabels (lines : List Line)
  | translateLine (line : Line)
  | assemble (lines : List Line)
  | finalize

/-- Makes a call, which may give words. -/
def call : Call → Assembling (List Word)
  | .resolveLabels lines => do
    resolveLabels lines
    return []
  | .translateLine line => do
    return (← translateLine line).toList
  | .assemble lines => assemble lines
  | .finalize => do
    finalize
    return []

/-- What calls consist of. -/
inductive Act where
  /-- Makes sure that the labels have not been resolved. -/
  | start
  | resolve (line : Line)
  /-- Ends the first pass. -/
  | close
  | translate (line : Line)
  | finalize

/-- Does an act, which may give a word. -/
def act : Act → Assembling (Option Word)
  | .start => do
    if (← get).resolved then throw (.breach .labelsAlreadyResolved)
    return none
  | .resolve line => do
    resolveLine line
    return none
  | .close => do
    modify fun s => { s with resolved := true }
    return none
  | .translate line => translateLine line
  | .finalize => do
    finalize
    return none

/-- The acts of the first pass. -/
def firstPass (lines : List Line) : List Act :=
  .start :: lines.map .resolve ++ [.close]

/-- The acts of a call. -/
def Call.acts : Call → List Act
  | resolveLabels lines => firstPass lines
  | translateLine line => [.translate line]
  | assemble lines => firstPass lines ++ lines.map .translate ++ [.finalize]
  | finalize => [.finalize]

theorem filterMapM_resolve (lines : List Line) :
    (lines.map Act.resolve).filterMapM act = lines.forM resolveLine >>= fun _ => pure [] := by
  induction lines with
  | nil => simp
  | cons line lines ih => simp [List.filterMapM_cons, ih, act]

theorem filterMapM_translate (lines : List Line) :
    (lines.map Act.translate).filterMapM act = lines.filterMapM translateLine := by
  induction lines with
  | nil => rfl
  | cons line lines ih => rw [List.map_cons, List.filterMapM_cons, List.filterMapM_cons, ih]; rfl

theorem filterMapM_firstPass (lines : List Line) :
    (firstPass lines).filterMapM act = resolveLabels lines >>= fun _ => pure [] := by
  have hrest : (lines.map Act.resolve ++ [Act.close]).filterMapM act =
      lines.forM resolveLine >>= fun _ => (modify fun s : Assembler => { s with resolved := true }) >>= fun _ =>
        pure [] := by
    simp [filterMapM_append, filterMapM_resolve, List.filterMapM_cons, act]
  rw [firstPass, List.cons_append, List.filterMapM_cons, hrest]
  funext s
  -- The two sides begin with the same question about the state.
  cases hs : s.resolved with
  | false =>
    have hstart : act .start s = .ok none s := by
      obtain ⟨symbols, index, resolved, finalized, strict, warnings⟩ := s
      subst hs
      rfl
    show EStateM.bind (act .start) _ s = EStateM.bind (resolveLabels lines) _ s
    rw [EStateM.bind, hstart, EStateM.bind, resolveLabels_eq hs, ← bind_assoc]
    rfl
  | true =>
    obtain ⟨symbols, index, resolved, finalized, strict, warnings⟩ := s
    subst hs
    rfl

/-- A call does its acts one after another, up to the first that fails, and gives their words. -/
theorem call_eq_acts (c : Call) : call c = c.acts.filterMapM act := by
  cases c with
  | resolveLabels lines => rw [Call.acts, filterMapM_firstPass, call]
  | translateLine line =>
    rw [Call.acts, List.filterMapM_cons, call]
    refine congrArg (translateLine line >>= ·) (funext fun o => ?_)
    cases o <;> simp
  | assemble lines =>
    rw [Call.acts, filterMapM_append, filterMapM_append, filterMapM_firstPass, filterMapM_translate]
    simp [call, assemble, List.filterMapM_cons, act]
  | finalize => simp [call, Call.acts, List.filterMapM_cons, act]

/-! ## What an act does -/

/-- What an act can do, whether or not it fails: it binds a label, it allocates a variable, it raises a
flag, or it leaves symbols and flags as they are. -/
inductive Step (s : Assembler) : Act → Assembler → Prop
  | still {a : Act} {s' : Assembler} : s'.symbols = s.symbols → s'.resolved = s.resolved → s'.finalized = s.finalized →
    Step s a s'
  | label {line : Line} {name : String} {t : SymbolTable} : line.reading? = some (.ok (.label name)) →
    s.symbols.get? name = none → t.toList = s.symbols.toList ++ [(name, (s.index : Int))] →
    Step s (.resolve line) { s with symbols := t }
  | variable {line : Line} {name : String} {t : SymbolTable} : s.resolved = true → s.finalized = false →
    line.reading? = some (.ok (.address name)) → s.symbols.get? name = none →
    t.toList = s.symbols.toList ++ [(name, s.symbols.next)] → Step s (.translate line) { s with symbols := t }
  | close : Step s .close { s with resolved := true }
  | finalize : Step s .finalize { s with finalized := true }

theorem step_resolve (line : Line) (s : Assembler) : Step s (.resolve line) (leftBy (resolveLine line s)) := by
  rw [resolveLine_eq]
  split
  · exact .still rfl rfl rfl
  · exact .still rfl rfl rfl
  next name hr =>
    split
    next t ht =>
      obtain ⟨hnew, -, -, hlist, -⟩ := SymbolTable.add_eq_ok ht
      exact .label hr (SymbolTable.get?_eq_none_iff.2 hnew) hlist
    · exact .still rfl rfl rfl
  · exact .still rfl rfl rfl
  · rw [countInstruction_eq]
    split
    · exact .still rfl rfl rfl
    · exact .still rfl rfl rfl

/-- A line is translated only between the end of the first pass and the end of the run. -/
theorem translateLine_of_closed {s : Assembler} (h : ¬ (s.resolved = true ∧ s.finalized = false)) (line : Line) :
    ∃ e, translateLine line s = .error e s := by
  obtain ⟨symbols, index, resolved, finalized, strict, warnings⟩ := s
  cases resolved with
  | false => exact ⟨_, rfl⟩
  | true =>
    cases finalized with
    | false => exact absurd ⟨rfl, rfl⟩ h
    | true => exact ⟨_, rfl⟩

theorem step_encode {line : Line} {i : Instruction} {s : Assembler} (hr : s.resolved = true) (hf : s.finalized = false)
    (hi : line.reading? = some (.ok i)) :
    Step s (.translate line) (leftBy (encode line.content line.location i s)) := by
  cases i with
  | address symbol =>
    by_cases hnum : Text.isNumeral symbol.toList = true
    · rw [encode_literal hnum]
      split
      · exact .still rfl rfl rfl
      · split
        · exact .still rfl rfl rfl
        · exact .still rfl rfl rfl
    · rw [encode_symbol (by simpa using hnum)]
      split
      · exact .still rfl rfl rfl
      next address t ht =>
        -- Whether or not the address fits a word, the symbol has been looked up.
        have hstep : Step s (.translate line) { s with symbols := t } := by
          rcases SymbolTable.getOrAllocate_eq_ok ht with ⟨-, rfl⟩ | ⟨hnew, -, -, hlist, -⟩
          · exact .still rfl rfl rfl
          · exact .variable hr hf hi (SymbolTable.get?_eq_none_iff.2 hnew) hlist
        split
        · exact hstep
        · exact hstep
  | compute dest computation jump =>
    rw [encode_compute]
    split
    · exact .still rfl rfl rfl
    · exact .still rfl rfl rfl
  | label name => exact .still rfl rfl rfl
  | unrecognized text =>
    rw [encode_unrecognized]
    split
    · exact .still rfl rfl rfl
    · exact .still rfl rfl rfl

theorem step_translate (line : Line) (s : Assembler) : Step s (.translate line) (leftBy (translateLine line s)) := by
  by_cases hopen : s.resolved = true ∧ s.finalized = false
  · rw [translateLine_eq hopen.1 hopen.2]
    split
    · exact .still rfl rfl rfl
    · exact .still rfl rfl rfl
    next i hi => exact step_encode hopen.1 hopen.2 hi
  · obtain ⟨e, he⟩ := translateLine_of_closed hopen line
    rw [he]
    exact .still rfl rfl rfl

theorem step_act (a : Act) (s : Assembler) : Step s a (leftBy (act a s)) := by
  cases a with
  | start =>
    have hstart : leftBy (act .start s) = s := by
      obtain ⟨symbols, index, resolved, finalized, strict, warnings⟩ := s
      cases resolved <;> rfl
    rw [hstart]
    exact .still rfl rfl rfl
  | resolve line =>
    have hleft : leftBy (act (.resolve line) s) = leftBy (resolveLine line s) := leftBy_bind_pure ..
    rw [hleft]
    exact step_resolve line s
  | close => exact .close
  | translate line => exact step_translate line s
  | finalize => exact .finalize

/-- Later in a run: nothing has been taken back. -/
structure Onward (s s' : Assembler) : Prop where
  symbols : s.symbols.toList <+: s'.symbols.toList
  resolved : s.resolved = true → s'.resolved = true
  finalized : s.finalized = true → s'.finalized = true

theorem Onward.refl (s : Assembler) : Onward s s :=
  ⟨List.prefix_refl _, id, id⟩

theorem Onward.trans {s t u : Assembler} (h : Onward s t) (h' : Onward t u) : Onward s u :=
  ⟨h.symbols.trans h'.symbols, h'.resolved ∘ h.resolved, h'.finalized ∘ h.finalized⟩

theorem Step.onward {s s' : Assembler} {a : Act} (h : Step s a s') : Onward s s' := by
  cases h with
  | still ht hr hf => exact ⟨ht ▸ List.prefix_refl _, fun h => hr.trans h, fun h => hf.trans h⟩
  | label _ _ hlist => exact ⟨⟨_, hlist.symm⟩, id, id⟩
  | «variable» _ _ _ _ hlist => exact ⟨⟨_, hlist.symm⟩, id, id⟩
  | close => exact ⟨List.prefix_refl _, fun _ => rfl, id⟩
  | finalize => exact ⟨List.prefix_refl _, id, fun _ => rfl⟩

/-! ## The history of a run -/

/-- An act and the state in which it is done. -/
structure Moment where
  before : Assembler
  done : Act

namespace Moment

def result (m : Moment) : EStateM.Result Failure Assembler (Option Word) :=
  act m.done m.before

def after (m : Moment) : Assembler :=
  leftBy m.result

/-- A name that was free is bound. -/
def Binds (m : Moment) (name : String) : Prop :=
  m.before.symbols.get? name = none ∧ m.after.symbols.get? name ≠ none

/-- The first pass binds the label that stands on a line. -/
def BindsLabel (m : Moment) (name : String) : Prop :=
  m.Binds name ∧ ∃ line, m.done = .resolve line ∧ line.reading? = some (.ok (.label name))

/-- The second pass allocates a variable for the symbol that a line uses. -/
def Allocates (m : Moment) (name : String) : Prop :=
  m.Binds name ∧ ∃ line, m.done = .translate line ∧ line.reading? = some (.ok (.address name))

/-- The address instruction for a symbol is given its word. -/
def Gives (m : Moment) (symbol : String) (w : Word) : Prop :=
  (∃ line, m.done = .translate line ∧ line.reading? = some (.ok (.address symbol))) ∧ ∃ s, m.result = .ok (some w) s

end Moment

/-- The moments of acts that are done one after another, up to the first that fails. -/
def moments (s : Assembler) : List Act → List Moment
  | [] => []
  | a :: acts => ⟨s, a⟩ :: match act a s with
    | .ok _ t => moments t acts
    | .error _ _ => []

/-- The moments of calls that are made one after another, whatever fails. -/
def history (s : Assembler) : List Call → List Moment
  | [] => []
  | c :: calls => moments s c.acts ++ history (leftBy (call c s)) calls

/-- Each moment begins where the one before it has ended. -/
inductive Linked : Assembler → List Moment → Assembler → Prop
  | nil (s : Assembler) : Linked s [] s
  | cons {m : Moment} {ms : List Moment} {s' : Assembler} : Linked m.after ms s' → Linked m.before (m :: ms) s'

theorem Linked.append {s t u : Assembler} {ms ns : List Moment} (h : Linked s ms t) (h' : Linked t ns u) :
    Linked s (ms ++ ns) u := by
  induction h with
  | nil s => exact h'
  | cons _ ih => exact .cons (ih h')

theorem linked_moments (acts : List Act) (s : Assembler) :
    Linked s (moments s acts) (leftBy (acts.filterMapM act s)) := by
  induction acts generalizing s with
  | nil => exact .nil s
  | cons a acts ih =>
    have hafter : Moment.after ⟨s, a⟩ = leftBy (act a s) := rfl
    rw [moments, List.filterMapM_cons]
    refine .cons (m := ⟨s, a⟩) ?_
    show Linked _ _ (leftBy (EStateM.bind (act a) _ s))
    rw [hafter, EStateM.bind]
    cases hact : act a s with
    | error e t => exact .nil t
    | ok o t =>
      cases o with
      | none => exact ih t
      | some w => exact leftBy_bind_pure (acts.filterMapM act) (w :: ·) t ▸ ih t

theorem linked_history (calls : List Call) (s : Assembler) :
    Linked s (history s calls) (leftAfter call s calls) := by
  induction calls generalizing s with
  | nil => exact .nil s
  | cons c calls ih =>
    have hcall : Linked s (moments s c.acts) (leftBy (call c s)) := by
      rw [call_eq_acts]
      exact linked_moments c.acts s
    exact hcall.append (ih _)

/-! ## Along a history -/

namespace Linked

variable {s s' : Assembler} {ms : List Moment}

theorem onward (h : Linked s ms s') : Onward s s' := by
  induction h with
  | nil s => exact .refl s
  | @cons m _ _ _ ih => exact (step_act m.done m.before).onward.trans ih

theorem onward_of_mem (h : Linked s ms s') {m : Moment} (hm : m ∈ ms) : Onward s m.before ∧ Onward m.after s' := by
  induction h with
  | nil s => cases hm
  | @cons x _ _ hrest ih =>
    rcases List.mem_cons.1 hm with rfl | hm
    · exact ⟨.refl _, hrest.onward⟩
    · exact ⟨(step_act x.done x.before).onward.trans (ih hm).1, (ih hm).2⟩

/-- Of two moments, the later one goes on from what the earlier one has left. -/
theorem pairwise (h : Linked s ms s') : ms.Pairwise fun x y => Onward x.after y.before := by
  induction h with
  | nil s => exact .nil
  | cons hrest ih => exact .cons (fun y hy => (hrest.onward_of_mem hy).1) ih

end Linked

theorem mem_of_mem_moments {m : Moment} {acts : List Act} {s : Assembler} (h : m ∈ moments s acts) : m.done ∈ acts := by
  induction acts generalizing s with
  | nil => cases h
  | cons a acts ih =>
    rcases List.mem_cons.1 h with rfl | h
    · exact List.mem_cons_self
    · cases hact : act a s with
      | error e t => simp [hact] at h
      | ok o t => exact List.mem_cons_of_mem _ (ih (by simpa [hact] using h))

theorem resolved_of_step {s s' : Assembler} {line : Line} (h : Step s (.resolve line) s') : s'.resolved = s.resolved := by
  cases h with
  | still _ hr _ => exact hr
  | label => rfl

/-- Lines are resolved one after another in a state whose labels are not resolved. -/
theorem unresolved_of_mem {m : Moment} {line : Line} (hm : m.done = .resolve line) {rest : List Act}
    (hrest : ∀ line, .resolve line ∉ rest) {lines : List Line} {s : Assembler} (hs : s.resolved = false)
    (h : m ∈ moments s (lines.map .resolve ++ rest)) : m.before.resolved = false := by
  induction lines generalizing s with
  | nil => exact absurd (hm ▸ mem_of_mem_moments h) (hrest line)
  | cons l lines ih =>
    rcases List.mem_cons.1 h with rfl | h
    · exact hs
    · have hstep := resolved_of_step (step_act (.resolve l) s)
      cases hact : act (.resolve l) s with
      | error e t => simp [hact] at h
      | ok o t =>
        rw [hact] at hstep
        exact ih (s := t) (hstep.trans hs) (by simpa [hact] using h)

theorem act_start {s : Assembler} : (s.resolved = false ∧ act .start s = .ok none s) ∨ ∃ e, act .start s = .error e s := by
  obtain ⟨symbols, index, resolved, finalized, strict, warnings⟩ := s
  cases resolved with
  | false => exact .inl ⟨rfl, rfl⟩
  | true => exact .inr ⟨_, rfl⟩

theorem unresolved_of_mem_firstPass {m : Moment} {line : Line} (hm : m.done = .resolve line) {rest : List Act}
    (hrest : ∀ line, .resolve line ∉ rest) {lines : List Line} {s : Assembler}
    (h : m ∈ moments s (firstPass lines ++ rest)) : m.before.resolved = false := by
  rw [firstPass, List.cons_append, List.cons_append, moments] at h
  rcases List.mem_cons.1 h with rfl | h
  · cases hm
  rcases act_start (s := s) with ⟨hs, hact⟩ | ⟨e, hact⟩
  · rw [hact, List.append_assoc] at h
    refine unresolved_of_mem hm ?_ hs h
    simpa using hrest
  · simp [hact] at h

/-- Whatever is called, labels are bound only while they are not resolved. -/
theorem unresolved_of_mem_history {m : Moment} {line : Line} (hm : m.done = .resolve line) {calls : List Call}
    {s : Assembler} (h : m ∈ history s calls) : m.before.resolved = false := by
  induction calls generalizing s with
  | nil => cases h
  | cons c calls ih =>
    rcases List.mem_append.1 h with h | h
    · cases c with
      | resolveLabels lines =>
        rw [Call.acts, ← List.append_nil (firstPass lines)] at h
        exact unresolved_of_mem_firstPass hm (by simp) h
      | assemble lines =>
        rw [Call.acts, List.append_assoc] at h
        exact unresolved_of_mem_firstPass hm (by simp) h
      | translateLine line => simpa [hm, Call.acts] using mem_of_mem_moments h
      | finalize => simpa [hm, Call.acts] using mem_of_mem_moments h
    · exact ih h

/-! ## Symbols and words along a history -/

theorem eq_of_get?_concat {t t' : SymbolTable} {name other : String} {address : Int}
    (hlist : t'.toList = t.toList ++ [(other, address)]) (hfree : t.get? name = none) (hbound : t'.get? name ≠ none) :
    name = other := by
  rw [Ne, SymbolTable.get?_eq_none_iff, hlist, List.map_append, List.mem_append, not_not] at hbound
  rcases hbound with hbound | hbound
  · exact absurd hbound (SymbolTable.get?_eq_none_iff.1 hfree)
  · exact List.mem_singleton.1 hbound

/-- A name is bound as the label on a line of the first pass or as the symbol on one of the second. -/
theorem Moment.Binds.cases {m : Moment} {name : String} (h : m.Binds name) : m.BindsLabel name ∨ m.Allocates name := by
  obtain ⟨before, done⟩ := m
  have hstep : Step before done (Moment.after ⟨before, done⟩) := step_act done before
  obtain ⟨hfree, hbound⟩ := id h
  generalize hafter : Moment.after ⟨before, done⟩ = after at hstep hbound
  cases hstep with
  | still ht _ _ => exact absurd (ht ▸ hfree) hbound
  | label hr _ hlist =>
    cases eq_of_get?_concat hlist hfree hbound
    exact .inl ⟨h, _, rfl, hr⟩
  | «variable» _ _ hr _ hlist =>
    cases eq_of_get?_concat hlist hfree hbound
    exact .inr ⟨h, _, rfl, hr⟩
  | close => exact absurd hfree hbound
  | finalize => exact absurd hfree hbound

/-- Words are given by the second pass only, and only while it is open. -/
theorem act_eq_some {a : Act} {s t : Assembler} {w : Word} (h : act a s = .ok (some w) t) :
    (∃ line, a = .translate line) ∧ s.resolved = true ∧ s.finalized = false := by
  cases a with
  | start =>
    rcases act_start (s := s) with ⟨-, hact⟩ | ⟨e, hact⟩
    · rw [hact] at h
      cases h
    · rw [hact] at h
      cases h
  | resolve line =>
    have hpure : (resolveLine line >>= fun _ => pure none : Assembling (Option Word)) s = .ok (some w) t := h
    obtain ⟨_, _, -, hnone⟩ := bind_eq_ok.1 hpure
    cases hnone
  | close => cases h
  | finalize => cases h
  | translate line =>
    refine ⟨⟨line, rfl⟩, ?_⟩
    by_contra hclosed
    obtain ⟨e, he⟩ := translateLine_of_closed hclosed line
    have : translateLine line s = .ok (some w) t := h
    rw [he] at this
    cases this

theorem Moment.Allocates.resolved {m : Moment} {name : String} (h : m.Allocates name) : m.before.resolved = true := by
  obtain ⟨⟨hfree, hbound⟩, line, hline, -⟩ := h
  by_contra hr
  obtain ⟨e, he⟩ := translateLine_of_closed (fun h => hr h.1) line
  have hafter : m.after = m.before := by
    rw [after, result, hline]
    show leftBy (translateLine line m.before) = _
    rw [he, leftBy]
  exact hbound (hafter ▸ hfree)

/-- Whatever is bound later, the word of a symbol that has been given is the one that the table of
that moment says. -/
theorem Moment.Gives.word {m : Moment} {symbol : String} {w : Word} (h : m.Gives symbol w) {s : Assembler}
    (hs : Onward m.after s) : w = Word.ofInt (Instruction.addressIn s.symbols.toList symbol) := by
  obtain ⟨⟨line, hline, hr⟩, t, ht⟩ := h
  have hafter : m.after = t := by rw [after, ht, leftBy]
  have hact : act m.done m.before = .ok (some w) t := ht
  obtain ⟨-, hres, hfin⟩ := act_eq_some hact
  rw [hline] at hact
  obtain ⟨later, hlater⟩ := hs.symbols
  have hword := (translated_of_translateLine hres hfin hact).words later
  rw [Program.ofLines_cons_of_ok hr, ← hafter, hlater] at hword
  exact List.singleton_inj.1 hword

theorem exists_moment_of_mem {acts : List Act} {s s' : Assembler} {words : List Word} {w : Word}
    (h : acts.filterMapM act s = .ok words s') (hw : w ∈ words) :
    ∃ m ∈ moments s acts, ∃ t, m.result = .ok (some w) t := by
  obtain ⟨os, hos, rfl⟩ := filterMapM_eq_ok.1 h
  clear h
  rw [List.reduceOption_mem_iff] at hw
  induction hos with
  | nil s => cases hw
  | @cons s t u a acts o os ha _ ih =>
    rw [moments, ha]
    rcases List.mem_cons.1 hw with rfl | hw
    · exact ⟨_, List.mem_cons_self, t, ha⟩
    · obtain ⟨m, hm, hresult⟩ := ih hw
      exact ⟨m, List.mem_cons_of_mem _ hm, hresult⟩

/-- Words are given only before the run is finalized. -/
theorem open_of_call_eq_ok {c : Call} {s t : Assembler} {words : List Word} (h : call c s = .ok words t)
    (hwords : words ≠ []) : (∀ line, c = .translateLine line → s.resolved = true) ∧ s.finalized = false := by
  obtain ⟨w, hw⟩ := List.exists_mem_of_ne_nil _ hwords
  rw [call_eq_acts] at h
  obtain ⟨m, hm, u, hu⟩ := exists_moment_of_mem h hw
  obtain ⟨-, hres, hfin⟩ := act_eq_some hu
  refine ⟨?_, ?_⟩
  · rintro line rfl
    obtain rfl : m = ⟨s, .translate line⟩ := by
      rcases List.mem_cons.1 hm with rfl | hm
      · rfl
      · cases hact : act (.translate line) s <;> simp [hact, moments] at hm
    exact hres
  · have honward := ((linked_moments c.acts s).onward_of_mem hm).1
    by_contra hs
    rw [honward.finalized (by simpa using hs)] at hfin
    cases hfin

theorem finalized_of_finalize {m : Moment} (h : m.done = .finalize) : m.after.finalized = true := by
  rw [Moment.after, Moment.result, h]
  rfl

/-- While the second pass is open, a symbol that can be looked up is given the word of its address. -/
theorem call_translateLine_symbol {line : Line} {symbol : String} {address : Int} {s : Assembler} {t : SymbolTable}
    (hr : s.resolved = true) (hf : s.finalized = false) (hline : line.reading? = some (.ok (.address symbol)))
    (hnum : Text.isNumeral symbol.toList = false)
    (hget : s.symbols.getOrAllocate symbol line.location = .ok (address, t)) (hle : 0 ≤ address) (hlt : address < 32768) :
    call (.translateLine line) s = .ok [Word.ofInt address] { s with symbols := t } := by
  have htranslate : translateLine line s = .ok (some (Word.ofInt address)) { s with symbols := t } := by
    rw [translateLine_eq hr hf, hline]
    dsimp only
    rw [encode_symbol hnum, hget]
    dsimp only
    rw [Instruction.encodeAddress_ok hle hlt]
  show EStateM.bind (translateLine line) _ s = _
  rw [EStateM.bind, htranslate]
  rfl

/-- **What an assembler does whatever is called on it.** Calls, the failing ones included, are
sequences of acts that stop where an act fails. In the history of every run a name is bound as a
label or allocated as a variable, no label is bound after a variable has been allocated, every name
keeps its address to the end, and two instructions for one symbol are given the same word. A call
gives words only while nothing has finalized the run, and a single line is translated only once the
labels are resolved; every word is written as sixteen binary digits. -/
theorem calls_keep_order (strict : Bool) (calls : List Call) :
    let s := leftAfter call { strict } calls
    let past := history { strict } calls
    (∀ c, call c = c.acts.filterMapM act) ∧ Linked { strict } past s ∧
    (∀ m ∈ past, ∀ name, m.Binds name → m.BindsLabel name ∨ m.Allocates name) ∧
    past.Pairwise (fun x y => ∀ name other, x.Allocates name → ¬ y.BindsLabel other) ∧
    (∀ m ∈ past, ∀ name address, m.before.symbols.get? name = some address → s.symbols.get? name = some address) ∧
    past.Pairwise (fun x y => ∀ symbol w w', x.Gives symbol w → y.Gives symbol w' → w = w') ∧
    ∀ c words t, call c s = .ok words t → words ≠ [] →
      (∀ line, c = .translateLine line → s.resolved = true) ∧ s.finalized = false ∧
      (∀ m ∈ past, m.done ≠ .finalize) ∧
      ∀ w ∈ words, (bits w).length = 16 ∧ ∀ digit ∈ (bits w).toList, digit = '0' ∨ digit = '1' := by
  intro s past
  have hlinked : Linked { strict } past s := linked_history calls _
  refine ⟨call_eq_acts, hlinked, fun _ _ _ h => h.cases, ?_, ?_, ?_, ?_⟩
  · refine hlinked.pairwise.imp_of_mem ?_
    rintro x y - hy honward name other hx ⟨-, line, hline, -⟩
    have hresolved := honward.resolved ((step_act x.done x.before).onward.resolved hx.resolved)
    rw [unresolved_of_mem_history hline hy] at hresolved
    cases hresolved
  · intro m hm name address hbound
    have honward := (step_act m.done m.before).onward.trans (hlinked.onward_of_mem hm).2
    exact SymbolTable.get?_of_longer honward.symbols hbound
  · refine hlinked.pairwise.imp ?_
    intro x y honward symbol w w' hx hy
    have hlater := honward.trans (step_act y.done y.before).onward
    exact (hx.word hlater).trans (hy.word (.refl _)).symm
  · intro c words t hcall hwords
    obtain ⟨hresolved, hopen⟩ := open_of_call_eq_ok hcall hwords
    refine ⟨hresolved, hopen, fun m hm hfinalize => ?_, fun w _ => ⟨by simp [bits], fun _ => Word.mem_bits⟩⟩
    rw [(hlinked.onward_of_mem hm).2.finalized (finalized_of_finalize hfinalize)] at hopen
    cases hopen

/-- A variable is asked for too early, allocated, then taken for a label by a source that is assembled
too late; the first and the last of these calls fail, and the variable still has its word. -/
theorem calls_keep_order_allocated :
    let calls : List Call := [.translateLine (.raw "@i"), .resolveLabels [.raw "@i"], .translateLine (.raw "@i"),
      .assemble [.raw "(i)"]]
    let s := leftAfter call {} calls
    ∃ words t, call (.translateLine (.raw "@i")) s = .ok words t ∧ words = [16] ∧
      s.resolved = true ∧ s.finalized = false ∧ ∀ m ∈ history {} calls, m.done ≠ .finalize := by
  intro calls s
  have hnew : SymbolTable.predefined.get? "i" = none := SymbolTable.get?_predefined (by decide)
  obtain ⟨t, hget, hlist, -⟩ := SymbolTable.getOrAllocate_of_free hnew (by rw [SymbolTable.next_predefined]; decide) none
  rw [SymbolTable.next_predefined] at hget hlist
  have ht : t.get? "i" = some 16 := SymbolTable.get?_concat hnew hlist
  have hs : s = { symbols := t, index := 1, resolved := true } := by
    have hopen : leftAfter call {} (calls.take 2) = { index := 1, resolved := true } := rfl
    have hthird : call (.translateLine (.raw "@i")) { index := 1, resolved := true } =
        .ok [Word.ofInt 16] { symbols := t, index := 1, resolved := true } :=
      call_translateLine_symbol rfl rfl rfl (by decide) hget (by decide) (by decide)
    have hsplit : s = leftAfter call (leftAfter call {} (calls.take 2)) (calls.drop 2) := rfl
    rw [hsplit, hopen]
    show leftBy (call (.assemble [.raw "(i)"]) (leftBy (call (.translateLine (.raw "@i")) _))) = _
    rw [hthird]
    rfl
  have hcall : call (.translateLine (.raw "@i")) s = .ok [Word.ofInt 16] s := by
    rw [hs]
    exact call_translateLine_symbol rfl rfl rfl (by decide) (SymbolTable.getOrAllocate_of_bound ht none)
      (by decide) (by decide)
  obtain ⟨-, -, -, -, -, -, hwords⟩ := calls_keep_order false calls
  obtain ⟨hresolved, hopen, hfinalize, -⟩ := hwords _ _ _ hcall (List.cons_ne_nil _ _)
  exact ⟨_, _, hcall, rfl, hresolved _ rfl, hopen, hfinalize⟩

end HackToolchain.Assembler
