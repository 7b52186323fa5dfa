import HackToolchain.Proofs.Program
import HackToolchain.Proofs.Traversal
import Mathlib
/-!
The two passes of the assembler against the meaning of programs. Each pass is described by what
it does with one line; a pass over lines that succeeds has done that line by line (`Resolved`,
`Translated`), and one that fails has failed for a reason that can be read off the program
(`ResolveFault`, `EncodeFault`). Together: a source is assembled exactly if its program can be,
and then into the words and the symbols of the program.
-/

namespace HackToolchain

/-- No line of the source is malformed. -/
def WellFormed (lines : List Line) : Prop :=
  ∀ line ∈ lines, ∀ e, line.reading? ≠ some (.error e)

instance (lines : List Line) : Decidable (WellFormed lines) :=
  decidable_of_iff (∀ line ∈ lines, (line.reading?.bind Except.toOption).isSome ∨ line.reading? = none) <| by
    refine forall₂_congr fun line _ => ?_
    rcases line.reading? with _ | _ | _ <;> simp [Except.toOption]

theorem WellFormed.append {before after : List Line} (h : WellFormed before) (h' : WellFormed after) :
    WellFormed (before ++ after) := by
  intro line hline
  rcases List.mem_append.1 hline with hline | hline
  · exact h line hline
  · exact h' line hline

theorem WellFormed.of_reading? {line : Line} (h : ∀ e, line.reading? ≠ some (.error e)) : WellFormed [line] := by
  intro l hl
  rw [List.mem_singleton.1 hl]
  exact h

namespace Assembler

open Program

/-! ## The first pass -/

theorem countInstruction_eq (location : Option Location) (s : Assembler) :
    countInstruction location s =
      if 32768 < s.index + 1 then
        .error (Cause.at (.addressSpaceExhausted s.index 32768 .instructions) location)
          { s with index := s.index + 1 }
      else .ok () { s with index := s.index + 1 } := by
  show (if Platform.addressSpace < ((s.index + 1 : Nat) : Int) then
      (throw (Cause.at (.addressSpaceExhausted ((s.index + 1 : Nat) - 1 : Int) Platform.addressSpace
        .instructions) location) : Assembling Unit)
    else pure ()) { s with index := s.index + 1 } = _
  have hlt : Platform.addressSpace < ((s.index + 1 : Nat) : Int) ↔ 32768 < s.index + 1 := by
    rw [Platform.addressSpace]
    omega
  rw [Nat.cast_succ, Int.add_sub_cancel]
  by_cases h : 32768 < s.index + 1
  · rw [if_pos h, if_pos (by simpa using hlt.2 h)]
    rfl
  · rw [if_neg h, if_neg (by simpa using mt hlt.1 h)]
    rfl

/-- Everything the first pass can do with a line. -/
theorem resolveLine_eq (line : Line) (s : Assembler) :
    resolveLine line s = match line.reading? with
      | none => .ok () s
      | some (.error e) => .error e s
      | some (.ok (.label name)) =>
        match s.symbols.add name s.index line.location with
        | .ok t => .ok () { s with symbols := t }
        | .error e => .error e s
      | some (.ok (.unrecognized _)) => .ok () s
      | some (.ok _) => countInstruction line.location s := by
  unfold resolveLine Line.reading?
  by_cases h : line.content = ""
  · simp only [h, beq_self_eq_true, if_true]
    rfl
  · have hb : (line.content == "") = false := by simpa using h
    rw [if_neg h]
    simp only [hb]
    cases Instruction.classify line.content line.location with
    | error e => rfl
    | ok i => cases i <;> rfl

/-- The first pass went over the lines: the labels are bound, the instructions counted, and
nothing else has changed. -/
structure Resolved (s : Assembler) (lines : List Line) (s' : Assembler) : Prop where
  wellFormed : WellFormed lines
  symbols : s'.symbols.toList = s.symbols.toList ++ labelsFrom s.index (ofLines lines)
  next : s'.symbols.next = s.symbols.next
  index : s'.index = s.index + size (ofLines lines)
  frame : s'.resolved = s.resolved ∧ s'.finalized = s.finalized ∧ s'.strict = s.strict ∧
    s'.warnings = s.warnings
  distinct : (s.symbols.toList.map Prod.fst).Nodup → (s'.symbols.toList.map Prod.fst).Nodup
  labels_le : ∀ b ∈ labelsFrom s.index (ofLines lines), b.2 ≤ 32767
  index_le : s.index ≤ 32768 → s'.index ≤ 32768

namespace Resolved

variable {s t u : Assembler} {line : Line} {lines before after : List Line}

theorem nil (s : Assembler) : Resolved s [] s where
  wellFormed := List.forall_mem_nil _
  symbols := (List.append_nil _).symm
  next := rfl
  index := rfl
  frame := ⟨rfl, rfl, rfl, rfl⟩
  distinct := id
  labels_le := List.forall_mem_nil _
  index_le := id

theorem append (h : Resolved s before t) (h' : Resolved t after u) : Resolved s (before ++ after) u where
  wellFormed := h.wellFormed.append h'.wellFormed
  symbols := by
    rw [h'.symbols, h.symbols, h.index, ofLines_append, labelsFrom_append, List.append_assoc]
  next := h'.next.trans h.next
  index := by rw [h'.index, h.index, ofLines_append, size_append, Nat.add_assoc]
  frame := ⟨h'.frame.1.trans h.frame.1, h'.frame.2.1.trans h.frame.2.1, h'.frame.2.2.1.trans h.frame.2.2.1,
    h'.frame.2.2.2.trans h.frame.2.2.2⟩
  distinct := h'.distinct ∘ h.distinct
  labels_le := by
    rw [ofLines_append, labelsFrom_append, ← h.index]
    intro b hb
    rcases List.mem_append.1 hb with hb | hb
    · exact h.labels_le b hb
    · exact h'.labels_le b hb
  index_le := h'.index_le ∘ h.index_le

end Resolved

theorem resolved_of_none {line : Line} (h : line.reading? = none) (s : Assembler) : Resolved s [line] s := by
  have hp : ofLines [line] = [] := ofLines_cons_of_none h []
  refine ⟨.of_reading? (by simp [h]), ?_, rfl, ?_, ⟨rfl, rfl, rfl, rfl⟩, id, ?_, id⟩
  · rw [hp, labelsFrom, List.append_nil]
  · rw [hp]; rfl
  · rw [hp]; exact List.forall_mem_nil _

/-- What the first pass does with one line that it accepts. -/
theorem resolved_of_resolveLine {line : Line} {s s' : Assembler} {u : Unit} (h : resolveLine line s = .ok u s') :
    Resolved s [line] s' := by
  rw [resolveLine_eq] at h
  split at h
  next hr =>
    cases h
    exact resolved_of_none hr s
  · cases h
  next name hr =>
    have hp : ofLines [line] = [.label name] := ofLines_cons_of_ok hr []
    split at h
    next t ht =>
      cases h
      obtain ⟨hnew, -, hlt, hlist, hnext⟩ := SymbolTable.add_eq_ok ht
      refine ⟨.of_reading? (by simp [hr]), ?_, hnext, ?_, ⟨rfl, rfl, rfl, rfl⟩, ?_, ?_, id⟩
      · rw [hp]; exact hlist
      · rw [hp]; rfl
      · intro hnd
        show (t.toList.map Prod.fst).Nodup
        rw [hlist, List.map_append, List.map_singleton]
        exact List.nodup_append.2 ⟨hnd, List.nodup_singleton _, by
          rintro x hx y hy rfl
          obtain rfl : x = name := List.mem_singleton.1 hy
          exact hnew hx⟩
      · rw [hp]
        intro b hb
        obtain rfl := List.mem_singleton.1 hb
        show (s.index : Int) ≤ 32767
        omega
    · cases h
  next text hr =>
    cases h
    have hp : ofLines [line] = [.unrecognized text] := ofLines_cons_of_ok hr []
    refine ⟨.of_reading? (by simp [hr]), ?_, rfl, ?_, ⟨rfl, rfl, rfl, rfl⟩, id, ?_, id⟩
    · rw [hp]; exact (List.append_nil _).symm
    · rw [hp]; rfl
    · rw [hp]; exact List.forall_mem_nil _
  next i hnl hnu hr =>
    have hp : ofLines [line] = [i] := ofLines_cons_of_ok hr []
    have hi : size [i] = 1 ∧ labelsFrom s.index [i] = [] := by
      cases i with
      | address | compute => exact ⟨rfl, rfl⟩
      | label name => exact (hnl name rfl).elim
      | unrecognized text => exact (hnu text rfl).elim
    rw [countInstruction_eq] at h
    split at h
    · cases h
    next hle =>
      cases h
      refine ⟨.of_reading? (by simp [hr]), ?_, rfl, ?_, ⟨rfl, rfl, rfl, rfl⟩, id, ?_, ?_⟩
      · rw [hp, hi.2]; exact (List.append_nil _).symm
      · rw [hp, hi.1]
      · rw [hp, hi.2]; exact List.forall_mem_nil _
      · exact fun _ => Nat.not_lt.1 hle

theorem resolved_of_traverses {lines : List Line} {s s' : Assembler} {us : List Unit}
    (h : Traverses resolveLine s lines us s') : Resolved s lines s' := by
  induction h with
  | nil s => exact .nil s
  | cons hx _ ih => exact (resolved_of_resolveLine hx).append ih

/-- Why the first pass refuses a source, and with what. -/
inductive ResolveFault (lines : List Line) : Failure → Prop
  | malformed {line : Line} {e : Failure} :
    line ∈ lines → line.reading? = some (.error e) → ResolveFault lines e
  | duplicateLabel {name : String} {bound : Int} {location : Option Location} :
    ¬ ((Platform.predefinedSymbols ++ (ofLines lines).labels).map Prod.fst).Nodup →
    ResolveFault lines (Cause.at (.duplicateLabel name bound) location)
  | instructions {address : Int} {location : Option Location} :
    (∃ b ∈ (ofLines lines).labels, 32767 < b.2) ∨ 32768 < (ofLines lines).size →
    ResolveFault lines (Cause.at (.addressSpaceExhausted address 32768 .instructions) location)

/-- A first pass that fails does so on the first line that has a fault, with the lines before it
resolved; no warning is given. -/
theorem fault_of_resolveLine_fails {strict : Bool} {lines : List Line} {s' : Assembler} {e : Failure}
    (h : Fails resolveLine { strict } lines e s') : ResolveFault lines e ∧ s'.warnings = #[] := by
  obtain ⟨before, line, after, us, t, rfl, hbefore, hline⟩ := h
  have hres := resolved_of_traverses hbefore
  have hindex : t.index = size (ofLines before) := hres.index.trans (Nat.zero_add _)
  have hmem : line ∈ before ++ line :: after := by simp
  have hsplit : ∀ {i}, line.reading? = some (.ok i) →
      ofLines (before ++ line :: after) = ofLines before ++ i :: ofLines after := fun hr => by
    rw [ofLines_append, ofLines_cons_of_ok hr]
  rw [resolveLine_eq] at hline
  split at hline
  · cases hline
  next hr =>
    cases hline
    exact ⟨.malformed hmem hr, hres.frame.2.2.2⟩
  next name hr =>
    have hlabels : (ofLines (before ++ line :: after)).labels =
        (ofLines before).labels ++ (name, (t.index : Int)) :: labelsFrom t.index (ofLines after) := by
      rw [labels, hsplit hr, labelsFrom_append, Nat.zero_add, ← hindex, labelsFrom, labels]
    split at hline
    · cases hline
    next he =>
      cases hline
      refine ⟨?_, hres.frame.2.2.2⟩
      rcases SymbolTable.add_eq_error he with ⟨bound, hbound, rfl⟩ | ⟨-, hrange, rfl⟩
      · refine .duplicateLabel fun hnd => ?_
        rw [hres.symbols, SymbolTable.toList_predefined] at hbound
        rw [hlabels, ← List.append_assoc, List.map_append, List.nodup_append] at hnd
        exact hnd.2.2 name (List.mem_map_of_mem hbound) name (by simp) rfl
      · refine .instructions (.inl ⟨(name, s'.index), ?_, ?_⟩)
        · rw [hlabels]
          simp
        · show (32767 : Int) < s'.index
          omega
  · cases hline
  next i hnl hnu hr =>
    have hi : size (i :: ofLines after) = size (ofLines after) + 1 := by
      cases i with
      | address | compute => exact List.countP_cons_of_pos rfl
      | label name => exact (hnl name rfl).elim
      | unrecognized text => exact (hnu text rfl).elim
    rw [countInstruction_eq] at hline
    split at hline
    next hlt =>
      cases hline
      refine ⟨.instructions (.inr ?_), hres.frame.2.2.2⟩
      rw [hsplit hr, size_append, hi]
      omega
    · cases hline

/-! ## The second pass -/

/-- Everything the second pass can do with a line, up to the encoding of its instruction. -/
theorem translateLine_eq {s : Assembler} (hr : s.resolved = true) (hf : s.finalized = false) (line : Line) :
    translateLine line s = match line.reading? with
      | none => .ok none s
      | some (.error e) => .error e s
      | some (.ok i) => encode line.content line.location i s := by
  obtain ⟨symbols, index, resolved, finalized, strict, warnings⟩ := s
  subst hr hf
  unfold Line.reading?
  by_cases h : line.content = ""
  · show (if line.content == "" then (pure none : Assembling _) else _) _ = _
    rw [if_pos (by simpa using h), if_pos h]
    rfl
  · show (if line.content == "" then (pure none : Assembling _) else _) _ = _
    rw [if_neg (by simpa using h), if_neg h]
    cases Instruction.classify line.content line.location <;> rfl

theorem encode_literal {symbol : String} (h : Text.isNumeral symbol.toList = true) (text : String)
    (location : Option Location) (s : Assembler) :
    encode text location (.address symbol) s =
      if 4300 < symbol.length then .error (.numeral (.tooLong symbol.length)) s
      else match Instruction.encodeAddress (Text.numeralValue symbol.toList) location with
        | .ok w => .ok (some w) s
        | .error e => .error e s := by
  have hop : operandAddress symbol location s =
      if 4300 < symbol.length then .error (.numeral (.tooLong symbol.length)) s
      else .ok (Text.numeralValue symbol.toList) s := by
    rw [operandAddress, if_pos h, Text.readNumeral, String.length_toList, Text.digitLimit]
    by_cases hl : 4300 < symbol.length
    · rw [if_pos hl, if_pos hl]
      rfl
    · rw [if_neg hl, if_neg hl]
      rfl
  show EStateM.bind (operandAddress symbol location) _ s = _
  rw [EStateM.bind, hop]
  by_cases hl : 4300 < symbol.length
  · rw [if_pos hl, if_pos hl]
  · rw [if_neg hl, if_neg hl]
    show (some <$> MonadExcept.ofExcept (Instruction.encodeAddress (Text.numeralValue symbol.toList) location)
      : Assembling _) s = _
    cases Instruction.encodeAddress (Text.numeralValue symbol.toList) location <;> rfl

theorem encode_symbol {symbol : String} (h : Text.isNumeral symbol.toList = false) (text : String)
    (location : Option Location) (s : Assembler) :
    encode text location (.address symbol) s = match s.symbols.getOrAllocate symbol location with
      | .error e => .error e s
      | .ok (address, t) => match Instruction.encodeAddress address location with
        | .ok w => .ok (some w) { s with symbols := t }
        | .error e => .error e { s with symbols := t } := by
  have hop : operandAddress symbol location s = match s.symbols.getOrAllocate symbol location with
      | .error e => .error e s
      | .ok (address, t) => .ok address { s with symbols := t } := by
    rw [operandAddress, if_neg (by simp [h]), symbolAddress]
    cases s.symbols.getOrAllocate symbol location <;> rfl
  show EStateM.bind (operandAddress symbol location) _ s = _
  rw [EStateM.bind, hop]
  cases s.symbols.getOrAllocate symbol location with
  | error e => rfl
  | ok r =>
    obtain ⟨address, t⟩ := r
    dsimp only
    cases Instruction.encodeAddress address location <;> rfl

theorem encode_compute (text : String) (location : Option Location) (dest : Destination)
    (computation jump : String) (s : Assembler) :
    encode text location (.compute dest computation jump) s =
      match Instruction.encodeCompute dest computation jump location with
        | .ok w => .ok (some w) s
        | .error e => .error e s := by
  show (some <$> MonadExcept.ofExcept (Instruction.encodeCompute dest computation jump location)
    : Assembling _) s = _
  cases Instruction.encodeCompute dest computation jump location <;> rfl

/-- The warning about a line that is skipped. -/
def skipWarning (text : String) (location : Option Location) : String :=
  "Skipping unrecognized line '" ++ text ++ "'" ++ Location.describe location

theorem encode_unrecognized (text other : String) (location : Option Location) (s : Assembler) :
    encode text location (.unrecognized other) s =
      if s.strict then .error (Cause.at (.malformedInstruction text Instruction.noGrammar) location) s
      else .ok none { s with warnings := s.warnings.push (skipWarning text location) } := by
  obtain ⟨symbols, index, resolved, finalized, strict, warnings⟩ := s
  cases strict <;> rfl

/-- The warnings about the lines of a source that are skipped. -/
def skipWarnings (lines : List Line) : List String :=
  lines.filterMap fun line => match line.reading? with
    | some (.ok (.unrecognized _)) => some (skipWarning line.content line.location)
    | _ => none

theorem skipWarnings_eq_nil {lines : List Line} (h : ∀ text, .unrecognized text ∉ ofLines lines) :
    skipWarnings lines = [] := by
  rw [skipWarnings, List.filterMap_eq_nil_iff]
  intro line hline
  split
  next text hr => exact absurd (List.mem_filterMap.2 ⟨line, hline, by rw [hr]; rfl⟩) (h text)
  · rfl

/-- The names a table has bound. -/
def names (s : Assembler) : List String :=
  s.symbols.toList.map Prod.fst

/-- The second pass went over the lines: the symbols that were not known have got addresses, every
instruction has its word, and skipped lines have been warned about. The words do not depend on
what is bound later. -/
structure Translated (s : Assembler) (lines : List Line) (words : List Word) (s' : Assembler) : Prop where
  symbols : s'.symbols.toList = s.symbols.toList ++ numbered s.symbols.next (fresh s.names (ofLines lines))
  next : s'.symbols.next = s.symbols.next + (fresh s.names (ofLines lines)).length
  next_le : s.symbols.next ≤ 16384 → s'.symbols.next ≤ 16384
  frame : s'.index = s.index ∧ s'.resolved = s.resolved ∧ s'.finalized = s.finalized ∧ s'.strict = s.strict
  warnings : s'.warnings.toList = s.warnings.toList ++ skipWarnings lines
  words : ∀ later, words = (ofLines lines).filterMap (Instruction.wordIn? (s'.symbols.toList ++ later))
  encodable : ∀ i ∈ ofLines lines, i.Encodable s.strict

namespace Translated

variable {s t u : Assembler} {line : Line} {lines before after : List Line} {ws vs : List Word}

theorem names (h : Translated s lines ws t) : t.names = s.names ++ fresh s.names (ofLines lines) := by
  rw [Assembler.names, h.symbols, List.map_append, map_fst_numbered]
  rfl

theorem empty {s : Assembler} (hp : ofLines lines = []) (hw : skipWarnings lines = []) : Translated s lines [] s where
  symbols := by rw [hp]; exact (List.append_nil _).symm
  next := by rw [hp]; exact (Int.add_zero _).symm
  next_le := id
  frame := ⟨rfl, rfl, rfl, rfl⟩
  warnings := by rw [hw, List.append_nil]
  words := by rw [hp]; exact fun _ => rfl
  encodable := by rw [hp]; exact List.forall_mem_nil _

theorem append (h : Translated s before ws t) (h' : Translated t after vs u) :
    Translated s (before ++ after) (ws ++ vs) u where
  symbols := by
    rw [h'.symbols, h.symbols, h.next, h.names, ofLines_append, fresh_append, numbered_append, List.append_assoc]
  next := by
    rw [h'.next, h.next, h.names, ofLines_append, fresh_append, List.length_append, Nat.cast_add, Int.add_assoc]
  next_le := h'.next_le ∘ h.next_le
  frame := ⟨h'.frame.1.trans h.frame.1, h'.frame.2.1.trans h.frame.2.1, h'.frame.2.2.1.trans h.frame.2.2.1,
    h'.frame.2.2.2.trans h.frame.2.2.2⟩
  warnings := by rw [h'.warnings, h.warnings, skipWarnings, skipWarnings, skipWarnings, List.filterMap_append,
    List.append_assoc]
  words := by
    intro later
    rw [ofLines_append, List.filterMap_append, ← h'.words later, h'.symbols, List.append_assoc, ← h.words]
  encodable := by
    intro i hi
    rw [ofLines_append] at hi
    rcases List.mem_append.1 hi with hi | hi
    · exact h.encodable i hi
    · exact h.frame.2.2.2 ▸ h'.encodable i hi

/-- A line whose instruction has been given its word. -/
theorem of_instruction {i : Instruction} (hr : line.reading? = some (.ok i)) (hu : ∀ text, i ≠ .unrecognized text)
    (hsymbols : t.symbols.toList = s.symbols.toList ++ numbered s.symbols.next (fresh s.names [i]))
    (hnext : t.symbols.next = s.symbols.next + (fresh s.names [i]).length)
    (hnext_le : s.symbols.next ≤ 16384 → t.symbols.next ≤ 16384)
    (hframe : t.index = s.index ∧ t.resolved = s.resolved ∧ t.finalized = s.finalized ∧ t.strict = s.strict)
    (hwarnings : t.warnings = s.warnings)
    (hwords : ∀ later, ws = [i].filterMap (Instruction.wordIn? (t.symbols.toList ++ later)))
    (hencodable : i.Encodable s.strict) : Translated s [line] ws t := by
  have hp : ofLines [line] = [i] := ofLines_cons_of_ok hr []
  have hw : skipWarnings [line] = [] := by
    rw [skipWarnings, List.filterMap_cons_none, List.filterMap_nil]
    rw [hr]
    cases i with
    | unrecognized text => exact (hu text rfl).elim
    | _ => rfl
  refine ⟨hp ▸ hsymbols, hp ▸ hnext, hnext_le, hframe, by rw [hw, hwarnings, List.append_nil], hp ▸ hwords, ?_⟩
  rw [hp]
  intro j hj
  rwa [List.mem_singleton.1 hj]

end Translated

theorem encodeAddress_eq_ok {address : Int} {location : Option Location} {w : Word}
    (h : Instruction.encodeAddress address location = .ok w) :
    w = Word.ofInt address ∧ 0 ≤ address ∧ address < 32768 := by
  rw [Instruction.encodeAddress] at h
  split at h
  next hrange =>
    cases h
    rw [Bool.and_eq_true, decide_eq_true_eq, decide_eq_true_eq] at hrange
    exact ⟨rfl, hrange⟩
  · cases h

theorem encodeCompute_eq_ok {dest : Destination} {computation jump : String} {location : Option Location} {w : Word}
    (h : Instruction.encodeCompute dest computation jump location = .ok w) :
    ∃ c j, Computation.ofText? computation = some c ∧ Jump.ofText? jump = some j ∧
      w = Instruction.computeWord c.code dest j.code := by
  rw [Instruction.encodeCompute, Instruction.encodeComputation, Instruction.encodeJump] at h
  split at h
  next c hc =>
    split at h
    next j hj =>
      cases h
      exact ⟨c, j, hc, hj, rfl⟩
    · cases h
  · cases h

/-- What the second pass does with one address instruction that it accepts. -/
theorem translated_address {line : Line} {symbol : String} {s s' : Assembler} {o : Option Word}
    (hr : line.reading? = some (.ok (.address symbol)))
    (h : encode line.content line.location (.address symbol) s = .ok o s') :
    Translated s [line] [o].reduceOption s' := by
  have hu : ∀ text, Instruction.address symbol ≠ .unrecognized text := fun _ h => by cases h
  by_cases hnum : Text.isNumeral symbol.toList = true
  · have hfresh : fresh s.names [.address symbol] = [] :=
      fresh_cons_none (by rw [Instruction.symbol?, if_pos hnum]) _ _
    rw [encode_literal hnum] at h
    split at h
    · cases h
    next hlen =>
    split at h
    next w hw =>
      cases h
      obtain ⟨rfl, -, hlt⟩ := encodeAddress_eq_ok hw
      refine .of_instruction hr hu ?_ ?_ id ⟨rfl, rfl, rfl, rfl⟩ rfl ?_ ?_
      · rw [hfresh]; exact (List.append_nil _).symm
      · rw [hfresh]; exact (Int.add_zero _).symm
      · intro later
        show _ = [Word.ofInt (Instruction.addressIn _ symbol)]
        rw [Instruction.addressIn, if_pos hnum]
        rfl
      · exact fun _ => ⟨Nat.not_lt.1 hlen, by omega⟩
    · cases h
  · have hsym : (Instruction.address symbol).symbol? = some symbol := by rw [Instruction.symbol?, if_neg hnum]
    rw [encode_symbol (by simpa using hnum)] at h
    split at h
    · cases h
    next address t ht =>
    split at h
    next w hw =>
      cases h
      obtain ⟨rfl, -, -⟩ := encodeAddress_eq_ok hw
      -- Whether the symbol was bound or is bound now, it keeps this address in every longer table.
      have hword : binding? symbol t.toList = some address → ∀ later,
          [some (Word.ofInt address)].reduceOption =
            [Instruction.address symbol].filterMap (Instruction.wordIn? (t.toList ++ later)) := by
        intro hb later
        show _ = [Word.ofInt (Instruction.addressIn _ symbol)]
        rw [Instruction.addressIn, if_neg hnum, binding?_append, hb]
        rfl
      have henc : (Instruction.address symbol).Encodable s.strict := fun hn => absurd hn hnum
      rcases SymbolTable.getOrAllocate_eq_ok ht with ⟨hb, rfl⟩ | ⟨hnew, rfl, hlt, hlist, hnext⟩
      · have hmem : symbol ∈ s.names := List.mem_map_of_mem (mem_of_binding? hb)
        have hfresh : fresh s.names [.address symbol] = [] := fresh_cons_known hsym hmem _
        refine .of_instruction hr hu ?_ ?_ id ⟨rfl, rfl, rfl, rfl⟩ rfl (hword hb) henc
        · rw [hfresh]; exact (List.append_nil _).symm
        · rw [hfresh]; exact (Int.add_zero _).symm
      · have hfresh : fresh s.names [.address symbol] = [symbol] := fresh_cons_new hsym hnew _
        have hb : binding? symbol t.toList = some s.symbols.next := by
          rw [hlist, binding?_append, binding?_eq_none_iff.2 hnew]
          simp [binding?]
        refine .of_instruction hr hu ?_ ?_ ?_ ⟨rfl, rfl, rfl, rfl⟩ rfl (hword hb) henc
        · rw [hfresh]; exact hlist
        · rw [hfresh]; exact hnext
        · intro _
          show t.next ≤ 16384
          omega
    · cases h

/-- What the second pass does with one line that it accepts. -/
theorem translated_of_translateLine {line : Line} {s s' : Assembler} {o : Option Word} (hres : s.resolved = true)
    (hfin : s.finalized = false) (h : translateLine line s = .ok o s') :
    Translated s [line] [o].reduceOption s' := by
  rw [translateLine_eq hres hfin] at h
  split at h
  next hr =>
    cases h
    refine .empty (ofLines_cons_of_none hr []) ?_
    rw [skipWarnings, List.filterMap_cons_none (by rw [hr]), List.filterMap_nil]
  · cases h
  next i hr =>
  cases i with
  | address symbol => exact translated_address hr h
  | label name =>
    cases h
    refine .of_instruction hr (by simp) (List.append_nil _).symm (Int.add_zero _).symm id ⟨rfl, rfl, rfl, rfl⟩ rfl
      (fun _ => rfl) trivial
  | compute dest computation jump =>
    rw [encode_compute] at h
    split at h
    next w hw =>
      cases h
      obtain ⟨c, j, hc, hj, rfl⟩ := encodeCompute_eq_ok hw
      refine .of_instruction hr (by simp) (List.append_nil _).symm (Int.add_zero _).symm id ⟨rfl, rfl, rfl, rfl⟩ rfl
        (fun later => ?_) ?_
      · simp [Instruction.wordIn?, hc, hj]
      · simp [Instruction.Encodable, hc, hj]
    · cases h
  | unrecognized text =>
    have hp : ofLines [line] = [.unrecognized text] := ofLines_cons_of_ok hr []
    rw [encode_unrecognized] at h
    split at h
    · cases h
    next hstrict =>
      cases h
      refine ⟨?_, ?_, id, ⟨rfl, rfl, rfl, rfl⟩, ?_, ?_, ?_⟩
      · rw [hp]; exact (List.append_nil _).symm
      · rw [hp]; exact (Int.add_zero _).symm
      · rw [skipWarnings, List.filterMap_cons_some (by rw [hr]), List.filterMap_nil, Array.toList_push]
      · rw [hp]; exact fun _ => rfl
      · rw [hp]
        intro i hi
        rw [List.mem_singleton.1 hi]
        exact Bool.eq_false_iff.2 hstrict

theorem translated_of_traverses {lines : List Line} {s s' : Assembler} {os : List (Option Word)}
    (hres : s.resolved = true) (hfin : s.finalized = false) (h : Traverses translateLine s lines os s') :
    Translated s lines os.reduceOption s' := by
  induction h with
  | nil s => exact .empty rfl rfl
  | cons hx _ ih =>
    have h := translated_of_translateLine hres hfin hx
    have := h.append (ih (h.frame.2.1.trans hres) (h.frame.2.2.1.trans hfin))
    rwa [← List.reduceOption_append] at this

/-! ## What the second pass refuses -/

/-- Why the second pass refuses a source, and with what. -/
inductive EncodeFault (strict : Bool) (lines : List Line) : Failure → Prop
  | digits {symbol : String} : .address symbol ∈ ofLines lines → Text.isNumeral symbol.toList = true →
    4300 < symbol.length → EncodeFault strict lines (.numeral (.tooLong symbol.length))
  | address {symbol : String} {location : Option Location} : .address symbol ∈ ofLines lines →
    Text.isNumeral symbol.toList = true → 32768 ≤ Text.numeralValue symbol.toList → EncodeFault strict lines
      (Cause.at (.addressSpaceExhausted (Text.numeralValue symbol.toList) 32768 .address) location)
  | data {address : Int} {location : Option Location} : 16368 < (ofLines lines).unbound.length →
    EncodeFault strict lines (Cause.at (.addressSpaceExhausted address 16384 .data) location)
  | unknownComputation {dest : Destination} {computation jump : String} {location : Option Location} :
    .compute dest computation jump ∈ ofLines lines → Computation.ofText? computation = none →
    EncodeFault strict lines (Cause.at (.unknownComputation computation) location)
  | unknownJump {dest : Destination} {computation jump : String} {location : Option Location} :
    .compute dest computation jump ∈ ofLines lines → Jump.ofText? jump = none →
    EncodeFault strict lines (Cause.at (.unknownJump jump) location)
  | unrecognized {text content : String} {location : Option Location} :
    strict = true → .unrecognized text ∈ ofLines lines →
    EncodeFault strict lines (Cause.at (.malformedInstruction content Instruction.noGrammar) location)

/-- Why a source is refused: the second pass only sees sources that the first has accepted. -/
def Fault (strict : Bool) (lines : List Line) (e : Failure) : Prop :=
  ResolveFault lines e ∨ WellFormed lines ∧ (ofLines lines).Resolvable ∧ EncodeFault strict lines e

theorem encodeAddress_eq_error {address : Int} {location : Option Location} {e : Failure}
    (h : Instruction.encodeAddress address location = .error e) :
    ¬ (0 ≤ address ∧ address < 32768) ∧
      e = Cause.at (.addressSpaceExhausted address 32768 .address) location := by
  rw [Instruction.encodeAddress] at h
  split at h
  · cases h
  next hrange =>
    cases h
    rw [Bool.and_eq_true, decide_eq_true_eq, decide_eq_true_eq] at hrange
    exact ⟨hrange, rfl⟩

theorem encodeCompute_eq_error {dest : Destination} {computation jump : String} {location : Option Location}
    {e : Failure} (h : Instruction.encodeCompute dest computation jump location = .error e) :
    Computation.ofText? computation = none ∧ e = Cause.at (.unknownComputation computation) location ∨
    Jump.ofText? jump = none ∧ e = Cause.at (.unknownJump jump) location := by
  rw [Instruction.encodeCompute, Instruction.encodeComputation, Instruction.encodeJump] at h
  split at h
  next c hc =>
    split at h
    · cases h
    next hj =>
      cases h
      exact .inr ⟨hj, rfl⟩
  next hc =>
    cases h
    exact .inl ⟨hc, rfl⟩

/-- The table at the start of the second pass. -/
theorem Resolved.names {strict : Bool} {lines : List Line} {t : Assembler} (h : Resolved { strict } lines t) :
    t.names = predefinedNames ++ (ofLines lines).labels.map Prod.fst := by
  rw [Assembler.names, h.symbols, SymbolTable.toList_predefined, List.map_append]
  rfl

theorem Resolved.resolvable {strict : Bool} {lines : List Line} {t : Assembler}
    (h : Resolved { strict } lines t) : (ofLines lines).Resolvable := by
  have hnd : (predefinedNames ++ (ofLines lines).labels.map Prod.fst).Nodup := by
    rw [← h.names]
    exact h.distinct (by rw [SymbolTable.toList_predefined]; decide)
  obtain ⟨-, hdistinct, hdisjoint⟩ := List.nodup_append.1 hnd
  refine ⟨hdistinct, fun name hl hp => hdisjoint name hp name hl rfl, ?_, h.labels_le⟩
  have := h.index_le (Nat.zero_le _)
  rwa [h.index, Nat.zero_add] at this

theorem predefinedSymbols_range : ∀ b ∈ Platform.predefinedSymbols, 0 ≤ b.2 ∧ b.2 < 32768 := by
  decide

/-- All that is bound when the second pass meets a line is in range. -/
theorem Resolved.bound_range {strict : Bool} {lines before : List Line} {ws : List Word} {t u : Assembler}
    (h : Resolved { strict } lines t) (h' : Translated { t with resolved := true } before ws u) :
    (∀ b ∈ u.symbols.toList, 0 ≤ b.2 ∧ b.2 < 32768) ∧ 0 ≤ u.symbols.next := by
  have hnext : t.symbols.next = 16 := h.next.trans SymbolTable.next_predefined
  have hle : u.symbols.next ≤ 16384 := h'.next_le (by show t.symbols.next ≤ 16384; omega)
  have hu : u.symbols.next = t.symbols.next + (fresh t.names (ofLines before)).length := h'.next
  refine ⟨fun b hb => ?_, by omega⟩
  rw [h'.symbols] at hb
  rcases List.mem_append.1 hb with hb | hb
  · rw [h.symbols, SymbolTable.toList_predefined] at hb
    rcases List.mem_append.1 hb with hb | hb
    · exact predefinedSymbols_range b hb
    · have := le_of_mem_labelsFrom hb
      have := h.labels_le b hb
      omega
  · have : t.symbols.next ≤ b.2 ∧ b.2 < t.symbols.next + (fresh t.names (ofLines before)).length := mem_numbered hb
    omega

/-- A second pass that fails does so on the first line that has a fault, after the warnings about
the lines before it. -/
theorem fault_of_translateLine_fails {strict : Bool} {lines : List Line} {t s' : Assembler} {e : Failure}
    (hres : Resolved { strict } lines t) (h : Fails translateLine { t with resolved := true } lines e s') :
    EncodeFault strict lines e ∧ s'.warnings.toList <+: skipWarnings lines := by
  obtain ⟨before, line, after, os, u, rfl, hbefore, hline⟩ := h
  have hfin : t.finalized = false := hres.frame.2.1
  have htr := translated_of_traverses (s := { t with resolved := true }) rfl hfin hbefore
  obtain ⟨hrange, hnext⟩ := hres.bound_range htr
  have hin : ∀ {i}, line.reading? = some (.ok i) → i ∈ ofLines (before ++ line :: after) := fun hr => by
    rw [ofLines_append, ofLines_cons_of_ok hr]
    simp
  have hwarnings : u.warnings.toList <+: skipWarnings (before ++ line :: after) := by
    rw [htr.warnings, skipWarnings, skipWarnings, List.filterMap_append]
    show t.warnings.toList ++ _ <+: _
    rw [hres.frame.2.2.2]
    exact List.prefix_append _ _
  rw [translateLine_eq (htr.frame.2.1.trans rfl) (htr.frame.2.2.1.trans hfin)] at hline
  split at hline
  · cases hline
  next hr => exact absurd hr (hres.wellFormed line (by simp) _)
  next i hr =>
  cases i with
  | label name => cases hline
  | address symbol =>
    by_cases hnum : Text.isNumeral symbol.toList = true
    · rw [encode_literal hnum] at hline
      split at hline
      next hlen =>
        cases hline
        exact ⟨.digits (hin hr) hnum hlen, hwarnings⟩
      next hlen =>
      split at hline
      · cases hline
      next he =>
        cases hline
        obtain ⟨hout, rfl⟩ := encodeAddress_eq_error he
        exact ⟨.address (hin hr) hnum (by omega), hwarnings⟩
    · have hsym : (Instruction.address symbol).symbol? = some symbol := by rw [Instruction.symbol?, if_neg hnum]
      rw [encode_symbol (by simpa using hnum)] at hline
      split at hline
      next he =>
        cases hline
        obtain ⟨hnew, hfull, rfl⟩ := SymbolTable.getOrAllocate_eq_error he
        refine ⟨.data ?_, hwarnings⟩
        -- The addresses below the limit are all taken, and this symbol would need one more.
        have hunbound : (ofLines (before ++ line :: after)).unbound = fresh t.names (ofLines before) ++
            fresh s'.names (.address symbol :: ofLines after) := by
          rw [unbound, ← hres.names, ofLines_append, ofLines_cons_of_ok hr, fresh_append, htr.names]
          rfl
        have hone : fresh s'.names (.address symbol :: ofLines after) = symbol :: _ := fresh_cons_new hsym hnew _
        rw [hunbound, hone, List.length_append, List.length_cons]
        have : s'.symbols.next = t.symbols.next + (fresh t.names (ofLines before)).length := htr.next
        have : t.symbols.next = 16 := hres.next.trans SymbolTable.next_predefined
        omega
      next address table ht =>
      split at hline
      · cases hline
      next he =>
        obtain ⟨hout, rfl⟩ := encodeAddress_eq_error he
        rcases SymbolTable.getOrAllocate_eq_ok ht with ⟨hb, -⟩ | ⟨-, rfl, hlt, -, -⟩
        · exact absurd (hrange _ (mem_of_binding? hb)) hout
        · exact absurd ⟨hnext, by omega⟩ hout
  | compute dest computation jump =>
    rw [encode_compute] at hline
    split at hline
    · cases hline
    next he =>
      cases hline
      refine ⟨?_, hwarnings⟩
      rcases encodeCompute_eq_error he with ⟨hc, rfl⟩ | ⟨hj, rfl⟩
      · exact .unknownComputation (hin hr) hc
      · exact .unknownJump (hin hr) hj
  | unrecognized text =>
    rw [encode_unrecognized] at hline
    split at hline
    next hstrict =>
      cases hline
      have : s'.strict = strict := htr.frame.2.2.2.trans hres.frame.2.2.1
      exact ⟨.unrecognized (this ▸ hstrict) (hin hr), hwarnings⟩
    · cases hline

/-- A source with a fault lacks what assembling it takes. -/
theorem Fault.not_assemblable {strict : Bool} {lines : List Line} {e : Failure} (h : Fault strict lines e) :
    ¬ (WellFormed lines ∧ (ofLines lines).Assemblable strict) := by
  rintro ⟨hwf, ha⟩
  rcases h with h | ⟨-, -, h⟩
  · cases h with
    | malformed hline hr => exact hwf _ hline _ hr
    | duplicateLabel hdup =>
      refine hdup ?_
      rw [List.map_append]
      refine List.nodup_append.2 ⟨by decide, ha.labels_distinct, ?_⟩
      rintro x hx y hy rfl
      exact ha.labels_new x hy hx
    | instructions hfull =>
      rcases hfull with ⟨b, hb, hlt⟩ | hlt
      · exact Int.not_lt.2 (ha.labels_le b hb) hlt
      · exact Nat.not_lt.2 ha.size_le hlt
  · cases h with
    | digits hi hnum hlt => exact Nat.not_lt.2 (ha.encodable _ hi hnum).1 hlt
    | address hi hnum hle => exact Nat.not_lt.2 hle (ha.encodable _ hi hnum).2
    | data hlt => exact Nat.not_lt.2 ha.unbound_le hlt
    | unknownComputation hi hc => simpa [hc] using (ha.encodable _ hi).1
    | unknownJump hi hj => simpa [hj] using (ha.encodable _ hi).2
    | unrecognized hstrict hi => exact absurd hstrict (Bool.eq_false_iff.1 (ha.encodable _ hi))

/-! ## Both passes -/

theorem resolveLabels_eq {s : Assembler} (h : s.resolved = false) (lines : List Line) :
    resolveLabels lines s =
      (lines.forM resolveLine >>= fun _ => modify fun t : Assembler => { t with resolved := true }) s := by
  obtain ⟨symbols, index, resolved, finalized, strict, warnings⟩ := s
  subst h
  rfl

theorem resolveLabels_eq_ok {s s' : Assembler} (h : s.resolved = false) {lines : List Line} {u : Unit} :
    resolveLabels lines s = .ok u s' ↔
      ∃ us t, Traverses resolveLine s lines us t ∧ s' = { t with resolved := true } := by
  rw [resolveLabels_eq h, bind_eq_ok]
  simp only [forM_eq_ok]
  constructor
  · rintro ⟨-, t, ⟨us, ht⟩, hmodify⟩
    cases hmodify
    exact ⟨us, t, ht, rfl⟩
  · rintro ⟨us, t, ht, rfl⟩
    exact ⟨(), t, ⟨us, ht⟩, rfl⟩

theorem resolveLabels_eq_error {s s' : Assembler} (h : s.resolved = false) {lines : List Line} {e : Failure} :
    resolveLabels lines s = .error e s' ↔ Fails resolveLine s lines e s' := by
  rw [resolveLabels_eq h, bind_eq_error, forM_eq_error]
  refine or_iff_left ?_
  rintro ⟨-, t, -, hmodify⟩
  cases hmodify

theorem assembleLines_eq_ok {strict : Bool} {lines : List Line} {words : List Word} {s : Assembler} :
    assembleLines strict lines = .ok words s ↔ ∃ us os t u, Traverses resolveLine { strict } lines us t ∧
      Traverses translateLine { t with resolved := true } lines os u ∧ words = os.reduceOption ∧
      s = { u with finalized := true } := by
  show (assemble lines) { strict } = _ ↔ _
  rw [assemble]
  simp only [bind_eq_ok, resolveLabels_eq_ok, filterMapM_eq_ok, pure_eq_ok]
  constructor
  · rintro ⟨_, _, ⟨us, t, ht, rfl⟩, _, u, ⟨os, hos, rfl⟩, _, _, hv, rfl, rfl⟩
    cases hv
    exact ⟨us, os, t, u, ht, hos, rfl, rfl⟩
  · rintro ⟨us, os, t, u, ht, hos, rfl, rfl⟩
    exact ⟨(), _, ⟨us, t, ht, rfl⟩, _, u, ⟨os, hos, rfl⟩, (), _, rfl, rfl, rfl⟩

theorem assembleLines_eq_error {strict : Bool} {lines : List Line} {e : Failure} {s : Assembler} :
    assembleLines strict lines = .error e s ↔ Fails resolveLine { strict } lines e s ∨
      ∃ us t, Traverses resolveLine { strict } lines us t ∧
        Fails translateLine { t with resolved := true } lines e s := by
  show (assemble lines) { strict } = _ ↔ _
  rw [assemble]
  simp only [bind_eq_error, resolveLabels_eq_ok, resolveLabels_eq_error, filterMapM_eq_error, pure_ne_error]
  constructor
  · rintro (h | ⟨-, -, ⟨us, t, ht, rfl⟩, h | ⟨ws, u, -, h | ⟨-, -, -, h⟩⟩⟩)
    · exact .inl h
    · exact .inr ⟨us, t, ht, h⟩
    · cases h
    · exact h.elim
  · rintro (h | ⟨us, t, ht, h⟩)
    · exact .inl h
    · exact .inr ⟨(), _, ⟨us, t, ht, rfl⟩, .inl h⟩

/-- A source that is assembled is well formed and its program can be assembled; the symbols and the
words are those of the program, and the warnings are about the lines that were skipped. -/
theorem assembled {strict : Bool} {lines : List Line} {words : List Word} {s : Assembler}
    (h : assembleLines strict lines = .ok words s) :
    (WellFormed lines ∧ (ofLines lines).Assemblable strict) ∧ s.symbols.toList = (ofLines lines).symbols ∧
      words = (ofLines lines).words ∧ s.warnings.toList = skipWarnings lines := by
  obtain ⟨us, os, t, u, hpass, hpass', rfl, rfl⟩ := assembleLines_eq_ok.1 h
  have hres := resolved_of_traverses hpass
  have htr := translated_of_traverses (s := { t with resolved := true }) rfl hres.frame.2.1 hpass'
  have hnext : t.symbols.next = 16 := hres.next.trans SymbolTable.next_predefined
  have hfresh : fresh t.names (ofLines lines) = (ofLines lines).unbound := by rw [hres.names, unbound]
  have hnext' : u.symbols.next = t.symbols.next + (fresh t.names (ofLines lines)).length := htr.next
  have hle : u.symbols.next ≤ 16384 := htr.next_le (by show t.symbols.next ≤ 16384; omega)
  have htable : u.symbols.toList = (ofLines lines).symbols := by
    have : u.symbols.toList = t.symbols.toList ++ numbered t.symbols.next (fresh t.names (ofLines lines)) :=
      htr.symbols
    rw [this, hres.symbols, SymbolTable.toList_predefined, hnext, hfresh]
    rfl
  refine ⟨⟨hres.wellFormed, hres.resolvable, ?_, ?_⟩, htable, ?_, ?_⟩
  · rw [← hfresh]
    omega
  · intro i hi
    have : t.strict = strict := hres.frame.2.2.1
    exact this ▸ htr.encodable i hi
  · rw [htr.words [], List.append_nil, htable, Program.words]
  · show u.warnings.toList = _
    rw [htr.warnings]
    show t.warnings.toList ++ _ = _
    rw [hres.frame.2.2.2]
    rfl

/-- A source that is refused has the fault it is refused for. -/
theorem refused {strict : Bool} {lines : List Line} {e : Failure} {s : Assembler}
    (h : assembleLines strict lines = .error e s) :
    Fault strict lines e ∧ s.warnings.toList <+: skipWarnings lines := by
  rcases assembleLines_eq_error.1 h with h | ⟨us, t, ht, h⟩
  · obtain ⟨hfault, hw⟩ := fault_of_resolveLine_fails h
    rw [hw]
    exact ⟨.inl hfault, List.nil_prefix⟩
  · have hres := resolved_of_traverses ht
    obtain ⟨hfault, hw⟩ := fault_of_translateLine_fails hres h
    exact ⟨.inr ⟨hres.wellFormed, hres.resolvable, hfault⟩, hw⟩

/-- Nothing else is needed to be assembled. -/
theorem exists_assembled {strict : Bool} {lines : List Line} (hwf : WellFormed lines)
    (ha : (ofLines lines).Assemblable strict) : ∃ words s, assembleLines strict lines = .ok words s := by
  cases h : assembleLines strict lines with
  | ok words s => exact ⟨words, s, rfl⟩
  | error e s => exact absurd ⟨hwf, ha⟩ (refused h).1.not_assemblable

end Assembler

/-- **The two passes assemble what the program means.** A source is assembled exactly if none of its
lines is malformed and its program can be assembled; then the table lists the predefined symbols,
the labels and the variables of the program, each instruction has its word, and only skipped lines
have been warned about. A source that is refused has the fault that is reported. -/
theorem assembleLines_agrees_with_program (strict : Bool) (lines : List Line) :
    ((∃ words s, assembleLines strict lines = .ok words s) ↔
      WellFormed lines ∧ (Program.ofLines lines).Assemblable strict) ∧
    (∀ words s, assembleLines strict lines = .ok words s →
      s.symbols.toList = (Program.ofLines lines).symbols ∧ words = (Program.ofLines lines).words ∧
        s.warnings.toList = Assembler.skipWarnings lines) ∧
    (∀ e s, assembleLines strict lines = .error e s →
      Assembler.Fault strict lines e ∧ s.warnings.toList <+: Assembler.skipWarnings lines) := by
  refine ⟨⟨?_, ?_⟩, ?_, ?_⟩
  · rintro ⟨words, s, h⟩
    exact (Assembler.assembled h).1
  · rintro ⟨hwf, ha⟩
    exact Assembler.exists_assembled hwf ha
  · intro words s h
    exact (Assembler.assembled h).2
  · intro e s h
    exact Assembler.refused h

/-- A label that is used before it stands, a variable, a located line and one that is skipped; and
the same source where skipping is not allowed. -/
theorem assembleLines_forward_jump :
    let lines : List Line := [.raw "@END // forward", .raw "0;JMP", .raw "no instruction", .raw " (END)",
      .located "@i" none, .raw "AM=M-1"]
    (∃ words s, assembleLines false lines = .ok words s ∧ words = [2, 0xEA87, 16, 0xFCA8] ∧
      s.symbols.toList = Platform.predefinedSymbols ++ [("END", 2), ("i", 16)] ∧
      s.warnings.toList = ["Skipping unrecognized line 'no instruction'"]) ∧
    ∃ e s, assembleLines true lines = .error e s ∧ Assembler.Fault true lines e := by
  intro lines
  refine ⟨?_, ?_⟩
  · obtain ⟨words, s, h⟩ := (assembleLines_agrees_with_program false lines).1.2 (by decide)
    obtain ⟨hsymbols, hwords, hwarnings⟩ := (assembleLines_agrees_with_program false lines).2.1 words s h
    exact ⟨words, s, h, hwords.trans (by decide), hsymbols.trans (by decide), hwarnings.trans (by decide)⟩
  · cases h : assembleLines true lines with
    | ok words s => exact absurd ((assembleLines_agrees_with_program true lines).1.1 ⟨words, s, h⟩) (by decide)
    | error e s => exact ⟨e, s, rfl, ((assembleLines_agrees_with_program true lines).2.2 e s h).1⟩

end HackToolchain
