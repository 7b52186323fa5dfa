import HackToolchain.Proofs.Program
import HackToolchain.Proofs.Traversal
import Mathlib
/-!
Whole runs of a symbol table. Whatever is asked of a table, in whatever order and whether or not it
is refused, each call does one of three things: nothing, one new label, or one new variable at the
next free address. From that, every table that calls can lead to is sound: names are bound once, to
addresses, and the variables lie side by side below the screen.
-/

namespace HackToolchain

theorem getElem?_numbered (n : Int) (names : List String) (i : Nat) :
    (numbered n names)[i]? = names[i]?.map fun name => (name, n + i) := by
  induction names generalizing n i with
  | nil => rfl
  | cons name names ih =>
    cases i with
    | zero => simp [numbered]
    | succ i =>
      have hnext : n + 1 + (i : Int) = n + ((i + 1 : Nat) : Int) := by
        push_cast
        omega
      rw [numbered, List.getElem?_cons_succ, List.getElem?_cons_succ, ih, hnext]

namespace SymbolTable

variable {t t' : SymbolTable} {name : String} {address : Int} {location : Option Location} {e : Failure}
  {names : List String}

/-! ## Calls -/

/-- A call on a table. -/
inductive Call where
  | add (name : String) (address : Int) (location : Option Location)
  | getOrAllocate (name : String) (location : Option Location)

/-- Makes a call, which may give an address. -/
def call : Call → EStateM Failure SymbolTable (Option Int)
  | .add name address location => fun t =>
    match t.add name address location with
    | .ok t' => .ok none t'
    | .error e => .error e t
  | .getOrAllocate name location => fun t =>
    match t.getOrAllocate name location with
    | .ok (address, t') => .ok (some address) t'
    | .error e => .error e t

/-- The name for which a call allocates a variable: one that it finds unbound and leaves bound. -/
def Call.allocation? (t : SymbolTable) : Call → Option String
  | .add .. => none
  | .getOrAllocate name location =>
    if !t.contains name && (leftBy (call (.getOrAllocate name location) t)).contains name then some name else none

/-- The names for which calls allocate variables, in order. -/
def allocated (t : SymbolTable) : List Call → List String
  | [] => []
  | c :: calls => (c.allocation? t).toList ++ allocated (leftBy (call c t)) calls

theorem call_add_of_ok (h : t.add name address location = .ok t') : call (.add name address location) t = .ok none t' := by
  simp only [call, h]

theorem call_add_of_error (h : t.add name address location = .error e) :
    call (.add name address location) t = .error e t := by
  simp only [call, h]

theorem call_getOrAllocate_of_ok (h : t.getOrAllocate name location = .ok (address, t')) :
    call (.getOrAllocate name location) t = .ok (some address) t' := by
  simp only [call, h]

theorem call_getOrAllocate_of_error (h : t.getOrAllocate name location = .error e) :
    call (.getOrAllocate name location) t = .error e t := by
  simp only [call, h]

/-! ## What a call does -/

theorem get?_predefined (h : name ∉ predefinedNames) : predefined.get? name = none := by
  rw [get?_eq_none_iff, toList_predefined]
  exact h

/-- What a call can do to a table: nothing, or one new binding. A label is bound to any address there
is, a variable to the next free one; the name is that of the variable. -/
inductive Changes (t : SymbolTable) : Option String → SymbolTable → Prop
  | nothing : Changes t none t
  | label {name : String} {address : Int} {t' : SymbolTable} : t.get? name = none → 0 ≤ address → address < 32768 →
    t'.toList = t.toList ++ [(name, address)] → t'.next = t.next → Changes t none t'
  | variable {name : String} {t' : SymbolTable} : t.get? name = none → t.next < 16384 →
    t'.toList = t.toList ++ [(name, t.next)] → t'.next = t.next + 1 → Changes t (some name) t'

theorem changes_call (c : Call) (t : SymbolTable) : Changes t (c.allocation? t) (leftBy (call c t)) := by
  cases c with
  | add name address location =>
    cases hadd : t.add name address location with
    | error e =>
      rw [call_add_of_error hadd]
      exact .nothing
    | ok t' =>
      obtain ⟨hnew, hle, hlt, hlist, hnext⟩ := add_eq_ok hadd
      rw [call_add_of_ok hadd]
      exact .label (get?_eq_none_iff.2 hnew) hle hlt hlist hnext
  | getOrAllocate name location =>
    rw [Call.allocation?, contains, contains]
    cases hget : t.getOrAllocate name location with
    | error e =>
      rw [call_getOrAllocate_of_error hget, leftBy, get?_eq_none_iff.2 (getOrAllocate_eq_error hget).1]
      exact .nothing
    | ok r =>
      obtain ⟨address, t'⟩ := r
      rw [call_getOrAllocate_of_ok hget, leftBy]
      rcases getOrAllocate_eq_ok hget with ⟨hbound, rfl⟩ | ⟨hnew, -, hlt, hlist, hnext⟩
      · rw [get?_eq, hbound]
        exact .nothing
      · have hfree := get?_eq_none_iff.2 hnew
        rw [hfree, get?_concat hfree hlist]
        exact .variable hfree hlt hlist hnext

theorem Changes.grows {v : Option String} (h : Changes t v t') : t.toList <+: t'.toList := by
  cases h with
  | nothing => exact List.prefix_refl _
  | label _ _ _ hlist _ => exact hlist ▸ List.prefix_append _ _
  | «variable» _ _ hlist _ => exact hlist ▸ List.prefix_append _ _

/-- What adding a name comes to. -/
theorem call_add_cases (t : SymbolTable) (name : String) (address : Int) (location : Option Location) :
    (t.get? name ≠ none ∧ ∃ bound,
      call (.add name address location) t = .error (Cause.at (.duplicateLabel name bound) location) t) ∨
    (t.get? name = none ∧ ¬ (0 ≤ address ∧ address ≤ 32767) ∧ call (.add name address location) t =
      .error (Cause.at (.addressSpaceExhausted address 32768 .instructions) location) t) ∨
    (t.get? name = none ∧ (0 ≤ address ∧ address ≤ 32767) ∧
      ∃ t', call (.add name address location) t = .ok none t') := by
  cases hget : t.get? name with
  | some bound => exact .inl ⟨Option.some_ne_none bound, bound, call_add_of_error (add_of_bound hget address location)⟩
  | none =>
    rcases add_of_free hget address location with ⟨hle, hlt, t', hadd, -, -⟩ | ⟨hrange, hadd⟩
    · exact .inr (.inr ⟨rfl, ⟨hle, by omega⟩, t', call_add_of_ok hadd⟩)
    · exact .inr (.inl ⟨rfl, by omega, call_add_of_error hadd⟩)

/-- What looking a symbol up comes to. -/
theorem call_getOrAllocate_cases (t : SymbolTable) (name : String) (location : Option Location) :
    ((t.get? name ≠ none ∨ t.next < 16384) ∧ ∃ address t', call (.getOrAllocate name location) t = .ok address t') ∨
    (t.get? name = none ∧ 16384 ≤ t.next ∧ call (.getOrAllocate name location) t =
      .error (Cause.at (.addressSpaceExhausted t.next 16384 .data) location) t) := by
  cases hget : t.get? name with
  | some address =>
    exact .inl ⟨.inl (Option.some_ne_none address), some address, t,
      call_getOrAllocate_of_ok (getOrAllocate_of_bound hget location)⟩
  | none =>
    by_cases hnext : t.next < 16384
    · obtain ⟨t', hallocate, -, -⟩ := getOrAllocate_of_free hget hnext location
      exact .inl ⟨.inr hnext, some t.next, t', call_getOrAllocate_of_ok hallocate⟩
    · exact .inr ⟨rfl, Int.not_lt.1 hnext, call_getOrAllocate_of_error (getOrAllocate_of_full hget hnext location)⟩

/-- A call that fails leaves the table as it was. -/
theorem eq_of_call_error {c : Call} (h : call c t = .error e t') : t' = t := by
  cases c with
  | add name address location =>
    rcases call_add_cases t name address location with ⟨-, bound, hcall⟩ | ⟨-, -, hcall⟩ | ⟨-, -, t₁, hcall⟩
    all_goals
      rw [hcall] at h
      cases h
    · rfl
    · rfl
  | getOrAllocate name location =>
    rcases call_getOrAllocate_cases t name location with ⟨-, address, t₁, hcall⟩ | ⟨-, -, hcall⟩
    all_goals
      rw [hcall] at h
      cases h
    rfl

/-! ## What calls keep -/

/-- A table on which variables have been allocated for these names. -/
structure Sound (t : SymbolTable) (names : List String) : Prop where
  predefined : Platform.predefinedSymbols <+: t.toList
  distinct : (t.toList.map Prod.fst).Nodup
  range : ∀ b ∈ t.toList, 0 ≤ b.2 ∧ b.2 < 32768
  cells : (numbered 16 names).Sublist t.toList
  next : t.next = 16 + names.length
  next_le : t.next ≤ 16384

theorem sound_predefined : Sound predefined [] where
  predefined := by rw [toList_predefined]
  distinct := by rw [toList_predefined]; decide
  range := by rw [toList_predefined]; decide
  cells := List.nil_sublist _
  next := next_predefined
  next_le := by rw [next_predefined]; decide

theorem distinct_concat (h : (t.toList.map Prod.fst).Nodup) (hnew : t.get? name = none)
    (hlist : t'.toList = t.toList ++ [(name, address)]) : (t'.toList.map Prod.fst).Nodup := by
  rw [hlist, List.map_append, List.map_singleton, ← List.concat_eq_append]
  exact h.concat (get?_eq_none_iff.1 hnew)

/-- One call keeps a table sound. -/
theorem Sound.changes {v : Option String} (h : Sound t names) (hc : Changes t v t') : Sound t' (names ++ v.toList) := by
  have hpredefined := h.predefined.trans hc.grows
  cases hc with
  | nothing =>
    rw [Option.toList_none, List.append_nil]
    exact h
  | label hnew hle hlt hlist hnext =>
    rw [Option.toList_none, List.append_nil]
    refine ⟨hpredefined, distinct_concat h.distinct hnew hlist, ?_, ?_, hnext.trans h.next, hnext ▸ h.next_le⟩
    · rw [hlist, List.forall_mem_append, List.forall_mem_singleton]
      exact ⟨h.range, hle, hlt⟩
    · rw [hlist]
      exact h.cells.trans (List.sublist_append_left _ _)
  | «variable» hnew hlt hlist hnext =>
    have hnonneg : 0 ≤ t.next := by
      rw [h.next]
      omega
    refine ⟨hpredefined, distinct_concat h.distinct hnew hlist, ?_, ?_, ?_, ?_⟩
    · rw [hlist, List.forall_mem_append, List.forall_mem_singleton]
      exact ⟨h.range, hnonneg, by show t.next < 32768; omega⟩
    · rw [hlist, Option.toList_some, numbered_append, ← h.next]
      exact h.cells.append_right _
    · rw [hnext, h.next, Option.toList_some, List.length_append, List.length_singleton, Nat.cast_add, Int.add_assoc]
      rfl
    · omega

/-- Every sequence of calls keeps a table sound. -/
theorem Sound.leftAfter (h : Sound t names) (calls : List Call) :
    Sound (leftAfter call t calls) (names ++ allocated t calls) := by
  induction calls generalizing t names with
  | nil =>
    rw [allocated, List.append_nil]
    exact h
  | cons c calls ih =>
    rw [allocated, ← List.append_assoc]
    exact ih (h.changes (changes_call c t))

theorem grows_leftAfter (calls : List Call) (t : SymbolTable) : t.toList <+: (leftAfter call t calls).toList :=
  leftAfter_induction (P := fun t' : SymbolTable => t.toList <+: t'.toList)
    (fun c _ h => h.trans (changes_call c _).grows) calls (List.prefix_refl _)

theorem Sound.get?_of_mem (h : Sound t names) (hm : (name, address) ∈ t.toList) : t.get? name = some address := by
  rw [get?_eq, binding?_of_mem h.distinct hm]

/-- The variables lie at consecutive addresses, in the order of their allocation. -/
theorem Sound.get?_allocated {i : Nat} (h : Sound t names) (hi : names[i]? = some name) :
    t.get? name = some (16 + i) ∧ (16 + i : Int) < 16384 := by
  have hmem : (name, 16 + (i : Int)) ∈ numbered 16 names := by
    refine List.mem_of_getElem? (i := i) ?_
    rw [getElem?_numbered, hi, Option.map_some]
  have hlt := (mem_numbered hmem).2
  have hnext := h.next
  have hle := h.next_le
  exact ⟨h.get?_of_mem (h.cells.subset hmem), by omega⟩

theorem Sound.nodup_addresses (h : Sound t names) : (names.map t.get?).Nodup := by
  have haddresses : names.map t.get? = (List.range names.length).map fun i : Nat => some (16 + (i : Int)) := by
    refine List.ext_getElem? fun i => ?_
    rw [List.getElem?_map, List.getElem?_map]
    cases hi : names[i]? with
    | none => simp [List.getElem?_eq_none_iff.1 hi]
    | some name => simp [(h.get?_allocated hi).1, (List.getElem?_eq_some_iff.1 hi).1]
  rw [haddresses]
  refine List.nodup_range.map fun i j hij => ?_
  have hij := Option.some.inj hij
  omega

/-- **Whatever is asked of a table, it stays sound.** After any sequence of calls, failing ones
included, the predefined symbols have their addresses, every bound address is one, names keep the
addresses they once had, and the variables lie at consecutive addresses from 16 on, in the order of
their allocation and below the screen. A call that fails changes nothing: adding fails exactly for a
name that is bound, and else for an address outside the address space, and looking a symbol up
exactly if it is not bound and the variables have reached the screen. -/
theorem sound_after_calls (calls : List Call) :
    let t := leftAfter call predefined calls
    let names := allocated predefined calls
    (Platform.predefinedSymbols.length = 23 ∧ ∀ b ∈ Platform.predefinedSymbols, t.get? b.1 = some b.2) ∧
    (∀ name address, t.get? name = some address → 0 ≤ address ∧ address ≤ 32767) ∧
    (∀ before after, calls = before ++ after → ∀ name address,
      (leftAfter call predefined before).get? name = some address → t.get? name = some address) ∧
    (t.next - 16 = names.length ∧ t.next ≤ 16384) ∧
    (∀ (i : Nat) name, names[i]? = some name → t.get? name = some (16 + i) ∧ (16 + i : Int) < Platform.screen) ∧
    (names.map t.get?).Nodup ∧
    (∀ c e t', call c t = .error e t' → t' = t) ∧
    (∀ name address location,
      ((∃ bound t', call (.add name address location) t = .error (Cause.at (.duplicateLabel name bound) location) t') ↔
        t.get? name ≠ none) ∧
      ((∃ t', call (.add name address location) t =
          .error (Cause.at (.addressSpaceExhausted address 32768 .instructions) location) t') ↔
        t.get? name = none ∧ ¬ (0 ≤ address ∧ address ≤ 32767)) ∧
      ((∃ t', call (.add name address location) t = .ok none t') ↔
        t.get? name = none ∧ 0 ≤ address ∧ address ≤ 32767)) ∧
    ∀ name location, (∃ e t', call (.getOrAllocate name location) t = .error e t') ↔
      t.get? name = none ∧ t.next = 16384 := by
  intro t names
  have hsound : Sound t names := sound_predefined.leftAfter calls
  have hnext := hsound.next
  have hnext_le := hsound.next_le
  refine ⟨⟨by decide, fun b hb => ?_⟩, ?_, ?_, ⟨by omega, hnext_le⟩, fun _ _ hi => hsound.get?_allocated hi,
    hsound.nodup_addresses, fun _ _ _ hc => eq_of_call_error hc, ?_, ?_⟩
  · exact hsound.get?_of_mem (hsound.predefined.subset hb)
  · intro name address hbound
    have := hsound.range _ (mem_of_binding? (t.get?_eq name ▸ hbound))
    omega
  · rintro before after rfl name address hbound
    have hall : t = leftAfter call (leftAfter call predefined before) after := leftAfter_append ..
    exact get?_of_longer (hall ▸ grows_leftAfter after _) hbound
  · intro name address location
    rcases call_add_cases t name address location with
      ⟨hbound, bound, hcall⟩ | ⟨hfree, hrange, hcall⟩ | ⟨hfree, hrange, t', hcall⟩
    · simp [hbound, hcall, Cause.at]
    · simp only [hfree, hcall, Cause.at]
      simpa using hrange
    · simp [hfree, hcall, hrange]
  · intro name location
    rcases call_getOrAllocate_cases t name location with ⟨hfound, address, t', hcall⟩ | ⟨hfree, hfull, hcall⟩
    · refine iff_of_false (by simp [hcall]) ?_
      rintro ⟨hfree, hfull⟩
      exact hfound.elim (fun h => h hfree) (by omega)
    · exact iff_of_true ⟨_, _, hcall⟩ ⟨hfree, by omega⟩

/-- A variable is allocated, then bound as a label and a label bound beyond the address space, both in
vain, and then one more variable is allocated. -/
theorem sound_after_refused_calls :
    let calls : List Call := [.getOrAllocate "x" none, .add "x" 5 none, .add "far" 40000 none, .getOrAllocate "y" none]
    let first := leftAfter call predefined (calls.take 1)
    let t := leftAfter call predefined calls
    first.get? "x" = some 16 ∧ t.get? "x" = some 16 ∧ ∃ e t', call (.add "x" 9 none) t = .error e t' ∧ t' = t := by
  intro calls first t
  have hfirst : first.get? "x" = some 16 := by
    have hnew : predefined.get? "x" = none := get?_predefined (by decide)
    obtain ⟨t', hget, hlist, -⟩ := getOrAllocate_of_free hnew (by rw [next_predefined]; decide) none
    show (leftBy (call (.getOrAllocate "x" none) predefined)).get? "x" = some 16
    rw [call_getOrAllocate_of_ok hget]
    exact (get?_concat hnew hlist).trans (congrArg some next_predefined)
  obtain ⟨-, -, hkept, -, -, -, hfails, hadd, -⟩ := sound_after_calls calls
  have hx : t.get? "x" = some 16 := hkept (calls.take 1) (calls.drop 1) rfl "x" 16 hfirst
  obtain ⟨bound, t', hcall⟩ := (hadd "x" 9 none).1.2 (by rw [hx]; exact Option.some_ne_none 16)
  exact ⟨hfirst, hx, _, t', hcall, hfails _ _ _ hcall⟩

end SymbolTable

end HackToolchain
