import HackToolchain.SymbolTable
import Mathlib
/-!
What the operations of a symbol table do to its list of bindings. Binding a label appends one
binding or fails because the name is bound or the address out of range; looking a symbol up gives
its address, appends a binding at the next free address, or fails because the variables have
reached the screen. A table is never changed otherwise, so a name keeps its address.
-/

namespace HackToolchain

/-! ## Bindings in a list -/

theorem binding?_eq_none_iff {name : String} {xs : List (String × Int)} :
    binding? name xs = none ↔ name ∉ xs.map Prod.fst := by
  induction xs with
  | nil => simp [binding?]
  | cons x xs ih =>
    obtain ⟨n, address⟩ := x
    simp only [binding?, List.map_cons, List.mem_cons, not_or]
    split
    · next h => simp [h]
    · next h =>
      rw [ih]
      exact ⟨fun hn => ⟨fun he => h he.symm, hn⟩, fun hn => hn.2⟩

theorem mem_of_binding? {name : String} {address : Int} {xs : List (String × Int)}
    (h : binding? name xs = some address) : (name, address) ∈ xs := by
  induction xs with
  | nil => simp [binding?] at h
  | cons x xs ih =>
    obtain ⟨n, a⟩ := x
    simp only [binding?] at h
    split at h
    · next hn =>
      cases h
      rw [hn]
      exact List.mem_cons_self
    · exact List.mem_cons_of_mem _ (ih h)

/-- With distinct names, the binding of a name is the one it has in the list. -/
theorem binding?_of_mem {name : String} {address : Int} {xs : List (String × Int)}
    (hnd : (xs.map Prod.fst).Nodup) (h : (name, address) ∈ xs) : binding? name xs = some address := by
  induction xs with
  | nil => simp at h
  | cons x xs ih =>
    obtain ⟨n, a⟩ := x
    simp only [List.map_cons, List.nodup_cons] at hnd
    simp only [binding?]
    rcases List.mem_cons.1 h with h | h
    · cases h
      rw [if_pos rfl]
    · have hne : n ≠ name := by
        rintro rfl
        exact hnd.1 (List.mem_map_of_mem (f := Prod.fst) h)
      rw [if_neg hne, ih hnd.2 h]

namespace SymbolTable

variable {t t' : SymbolTable} {name : String} {address : Int} {location : Option Location} {e : Failure}

theorem add_eq_ok (h : t.add name address location = .ok t') :
    name ∉ t.toList.map Prod.fst ∧ 0 ≤ address ∧ address < 32768 ∧
      t'.toList = t.toList ++ [(name, address)] ∧ t'.next = t.next := by
  unfold add at h
  split at h
  · cases h
  next free =>
  split at h
  next hrange =>
    cases h
    rw [Bool.and_eq_true, decide_eq_true_eq, decide_eq_true_eq] at hrange
    exact ⟨binding?_eq_none_iff.1 (t.get?_eq name ▸ free), hrange.1, hrange.2, toList_bind .., rfl⟩
  · cases h

theorem add_eq_error (h : t.add name address location = .error e) :
    (∃ bound, (name, bound) ∈ t.toList ∧ e = Cause.at (.duplicateLabel name bound) location) ∨
    name ∉ t.toList.map Prod.fst ∧ ¬ (0 ≤ address ∧ address < 32768) ∧
      e = Cause.at (.addressSpaceExhausted address 32768 .instructions) location := by
  unfold add at h
  split at h
  next bound hbound =>
    cases h
    exact .inl ⟨bound, mem_of_binding? (t.get?_eq name ▸ hbound), rfl⟩
  next free =>
  split at h
  · cases h
  next hrange =>
    cases h
    rw [Bool.and_eq_true, decide_eq_true_eq, decide_eq_true_eq] at hrange
    exact .inr ⟨binding?_eq_none_iff.1 (t.get?_eq name ▸ free), hrange, rfl⟩

theorem getOrAllocate_eq_ok (h : t.getOrAllocate name location = .ok (address, t')) :
    binding? name t.toList = some address ∧ t' = t ∨
    name ∉ t.toList.map Prod.fst ∧ address = t.next ∧ t.next < 16384 ∧
      t'.toList = t.toList ++ [(name, t.next)] ∧ t'.next = t.next + 1 := by
  unfold getOrAllocate at h
  split at h
  next bound hbound =>
    cases h
    exact .inl ⟨t.get?_eq name ▸ hbound, rfl⟩
  next free =>
  split at h
  next hnext =>
    cases h
    exact .inr ⟨binding?_eq_none_iff.1 (t.get?_eq name ▸ free), rfl, hnext, toList_bind t name t.next free, rfl⟩
  · cases h

theorem getOrAllocate_eq_error (h : t.getOrAllocate name location = .error e) :
    name ∉ t.toList.map Prod.fst ∧ 16384 ≤ t.next ∧
      e = Cause.at (.addressSpaceExhausted t.next 16384 .data) location := by
  unfold getOrAllocate at h
  split at h
  · cases h
  next free =>
  split at h
  · cases h
  next hnext =>
    cases h
    exact ⟨binding?_eq_none_iff.1 (t.get?_eq name ▸ free), Int.not_lt.1 hnext, rfl⟩

/-! ## What a table answers -/

theorem get?_eq_none_iff : t.get? name = none ↔ name ∉ t.toList.map Prod.fst := by
  rw [get?_eq, binding?_eq_none_iff]

theorem get?_concat (hnew : t.get? name = none) (hlist : t'.toList = t.toList ++ [(name, address)]) :
    t'.get? name = some address := by
  rw [get?_eq, hlist, binding?_append, ← get?_eq, hnew]
  simp [binding?]

/-- A longer table says what it said before. -/
theorem get?_of_longer (h : t.toList <+: t'.toList) (hbound : t.get? name = some address) :
    t'.get? name = some address := by
  obtain ⟨later, hlater⟩ := h
  rw [get?_eq] at hbound ⊢
  rw [← hlater, binding?_append, hbound]
  rfl

theorem add_of_bound {bound : Int} (h : t.get? name = some bound) (address : Int) (location : Option Location) :
    t.add name address location = .error (Cause.at (.duplicateLabel name bound) location) := by
  unfold add
  split
  next found hfound =>
    rw [h] at hfound
    cases hfound
    rfl
  next free =>
    rw [h] at free
    cases free

theorem add_of_free (h : t.get? name = none) (address : Int) (location : Option Location) :
    (0 ≤ address ∧ address < 32768 ∧ ∃ t', t.add name address location = .ok t' ∧
      t'.toList = t.toList ++ [(name, address)] ∧ t'.next = t.next) ∨
    ¬ (0 ≤ address ∧ address < 32768) ∧
      t.add name address location = .error (Cause.at (.addressSpaceExhausted address 32768 .instructions) location) := by
  cases hadd : t.add name address location with
  | ok t' =>
    obtain ⟨-, hle, hlt, hlist, hnext⟩ := add_eq_ok hadd
    exact .inl ⟨hle, hlt, t', rfl, hlist, hnext⟩
  | error e =>
    rcases add_eq_error hadd with ⟨bound, hmem, -⟩ | ⟨-, hrange, rfl⟩
    · exact absurd (List.mem_map_of_mem hmem) (get?_eq_none_iff.1 h)
    · exact .inr ⟨hrange, rfl⟩

theorem getOrAllocate_of_bound (h : t.get? name = some address) (location : Option Location) :
    t.getOrAllocate name location = .ok (address, t) := by
  unfold getOrAllocate
  split
  next found hfound =>
    rw [h] at hfound
    cases hfound
    rfl
  next free =>
    rw [h] at free
    cases free

theorem getOrAllocate_of_free (h : t.get? name = none) (hnext : t.next < 16384) (location : Option Location) :
    ∃ t', t.getOrAllocate name location = .ok (t.next, t') ∧ t'.toList = t.toList ++ [(name, t.next)] ∧
      t'.next = t.next + 1 := by
  cases hget : t.getOrAllocate name location with
  | error e => exact absurd (getOrAllocate_eq_error hget).2.1 (Int.not_le.2 hnext)
  | ok r =>
    obtain ⟨found, t'⟩ := r
    rcases getOrAllocate_eq_ok hget with ⟨hfound, -⟩ | ⟨-, rfl, -, hlist, hnext'⟩
    · rw [← get?_eq, h] at hfound
      cases hfound
    · exact ⟨t', rfl, hlist, hnext'⟩

theorem getOrAllocate_of_full (h : t.get? name = none) (hnext : ¬ t.next < 16384) (location : Option Location) :
    t.getOrAllocate name location = .error (Cause.at (.addressSpaceExhausted t.next 16384 .data) location) := by
  cases hget : t.getOrAllocate name location with
  | error e => rw [(getOrAllocate_eq_error hget).2.2]
  | ok r =>
    obtain ⟨found, t'⟩ := r
    rcases getOrAllocate_eq_ok hget with ⟨hfound, -⟩ | ⟨-, -, hlt, -, -⟩
    · rw [← get?_eq, h] at hfound
      cases hfound
    · exact absurd hlt hnext

/-! ## The table every assembly starts with -/

theorem bindNew_of_new {entry : String × Int} (h : entry.1 ∉ t.toList.map Prod.fst) :
    (t.bindNew entry).toList = t.toList ++ [entry] ∧ (t.bindNew entry).next = t.next := by
  unfold bindNew
  split
  · exact ⟨toList_bind .., rfl⟩
  next bound hbound =>
    have := binding?_eq_none_iff.2 h
    rw [← t.get?_eq, hbound] at this
    cases this

theorem foldl_bindNew : ∀ {entries : List (String × Int)} {t : SymbolTable},
    ((t.toList ++ entries).map Prod.fst).Nodup →
    (entries.foldl bindNew t).toList = t.toList ++ entries ∧ (entries.foldl bindNew t).next = t.next
  | [], t, _ => ⟨(List.append_nil _).symm, rfl⟩
  | entry :: entries, t, h => by
    have hnew : entry.1 ∉ t.toList.map Prod.fst := by
      intro hmem
      rw [List.map_append, List.nodup_append] at h
      exact h.2.2 _ hmem _ List.mem_cons_self rfl
    obtain ⟨hlist, hnext⟩ := bindNew_of_new hnew
    obtain ⟨hlist', hnext'⟩ := @foldl_bindNew entries (t.bindNew entry)
      (by rw [hlist, List.append_assoc]; exact h)
    rw [List.foldl_cons, hlist', hnext', hlist, hnext, List.append_assoc]
    exact ⟨rfl, rfl⟩

theorem toList_predefined : predefined.toList = Platform.predefinedSymbols :=
  (foldl_bindNew (t := empty) (by decide)).1

theorem next_predefined : predefined.next = 16 :=
  (foldl_bindNew (t := empty) (by decide)).2

end SymbolTable

end HackToolchain
