import HackToolchain.Assembler
import HackToolchain.Proofs.SymbolTable
import Mathlib
/-!
What assembling a program means, said of the whole program at once and without passes. A label
stands for the number of instructions before it; the symbols that are used and are neither
predefined nor labels get the addresses from 16 on, in the order of their first use; each
instruction then has its word. `Program.Assemblable` lists what a program must satisfy for that.
-/

namespace HackToolchain

/-- What the grammar makes of a line, if the line counts. -/
def Line.reading? (line : Line) : Option (Except Failure Instruction) :=
  if line.content = "" then none else some (Instruction.classify line.content line.location)

namespace Instruction

/-- The symbol that an instruction uses; a literal is none. -/
def symbol? : Instruction → Option String
  | address symbol => if Text.isNumeral symbol.toList then none else some symbol
  | label _ | compute .. | unrecognized _ => none

/-- The name that an instruction defines. -/
def label? : Instruction → Option String
  | label name => some name
  | address _ | compute .. | unrecognized _ => none

/-- The number that the symbol of an address instruction stands for. -/
def addressIn (table : List (String × Int)) (symbol : String) : Int :=
  if Text.isNumeral symbol.toList then Text.numeralValue symbol.toList
  else (binding? symbol table).getD 0

/-- The word of an instruction, if it has one. -/
def wordIn? (table : List (String × Int)) : Instruction → Option Word
  | address symbol => some (Word.ofInt (addressIn table symbol))
  | compute dest computation jump => do
    let c ← Computation.ofText? computation
    let j ← Jump.ofText? jump
    return computeWord c.code dest j.code
  | label _ | unrecognized _ => none

/-- An instruction that the second pass has no reason to refuse. -/
def Encodable (strict : Bool) : Instruction → Prop
  | address symbol => Text.isNumeral symbol.toList = true →
    symbol.length ≤ 4300 ∧ Text.numeralValue symbol.toList < 32768
  | compute _ computation jump => (Computation.ofText? computation).isSome ∧ (Jump.ofText? jump).isSome
  | label _ => True
  | unrecognized _ => strict = false

instance (strict : Bool) : DecidablePred (Encodable strict)
  | address symbol => inferInstanceAs (Decidable (Text.isNumeral symbol.toList = true →
    symbol.length ≤ 4300 ∧ Text.numeralValue symbol.toList < 32768))
  | compute _ computation jump =>
    inferInstanceAs (Decidable ((Computation.ofText? computation).isSome ∧ (Jump.ofText? jump).isSome))
  | label _ => isTrue trivial
  | unrecognized _ => inferInstanceAs (Decidable (strict = false))

end Instruction

abbrev Program := List Instruction

/-- The names that every program knows. -/
def predefinedNames : List String :=
  Platform.predefinedSymbols.map Prod.fst

/-- Names with consecutive addresses from `n` on. -/
def numbered (n : Int) : List String → List (String × Int)
  | [] => []
  | name :: names => (name, n) :: numbered (n + 1) names

namespace Program

/-- The program on the lines of a source. -/
def ofLines (lines : List Line) : Program :=
  lines.filterMap fun line => line.reading?.bind Except.toOption

/-- The number of places the program takes in the instruction memory. -/
def size (p : Program) : Nat :=
  p.countP Instruction.isExecutable

/-- The labels of a program that begins at address `n`, each with its address. -/
def labelsFrom (n : Nat) : Program → List (String × Int)
  | [] => []
  | .label name :: p => (name, (n : Int)) :: labelsFrom n p
  | .address _ :: p | .compute .. :: p => labelsFrom (n + 1) p
  | .unrecognized _ :: p => labelsFrom n p

def labels (p : Program) : List (String × Int) :=
  labelsFrom 0 p

def labelNames (p : Program) : List String :=
  p.filterMap Instruction.label?

/-- The symbols that are used and not known, each once, in the order of their first use. -/
def fresh (known : List String) (p : Program) : List String :=
  ((p.filterMap Instruction.symbol?).filter (· ∉ known)).eraseDups

/-- The symbols that become variables. -/
def unbound (p : Program) : List String :=
  p.fresh (predefinedNames ++ p.labels.map Prod.fst)

/-- The symbols of a program with their addresses. -/
def symbols (p : Program) : List (String × Int) :=
  Platform.predefinedSymbols ++ p.labels ++ numbered 16 p.unbound

/-- The words of a program. -/
def words (p : Program) : List Word :=
  p.filterMap (Instruction.wordIn? p.symbols)

/-- The labels of a program can be bound: the first pass has no reason to refuse it. -/
structure Resolvable (p : Program) : Prop where
  labels_distinct : (p.labels.map Prod.fst).Nodup
  labels_new : ∀ name ∈ p.labels.map Prod.fst, name ∉ predefinedNames
  size_le : p.size ≤ 32768
  labels_le : ∀ b ∈ p.labels, b.2 ≤ 32767

/-- What a program must satisfy to be assembled. -/
structure Assemblable (strict : Bool) (p : Program) : Prop extends Resolvable p where
  unbound_le : p.unbound.length ≤ 16368
  encodable : ∀ i ∈ p, i.Encodable strict

instance (p : Program) : Decidable p.Resolvable :=
  decidable_of_iff ((p.labels.map Prod.fst).Nodup ∧ (∀ name ∈ p.labels.map Prod.fst, name ∉ predefinedNames) ∧
      p.size ≤ 32768 ∧ ∀ b ∈ p.labels, b.2 ≤ 32767)
    ⟨fun ⟨h, h₁, h₂, h₃⟩ => ⟨h, h₁, h₂, h₃⟩, fun ⟨h, h₁, h₂, h₃⟩ => ⟨h, h₁, h₂, h₃⟩⟩

instance (strict : Bool) (p : Program) : Decidable (p.Assemblable strict) :=
  decidable_of_iff (p.Resolvable ∧ p.unbound.length ≤ 16368 ∧ ∀ i ∈ p, i.Encodable strict)
    ⟨fun ⟨h, h₁, h₂⟩ => ⟨h, h₁, h₂⟩, fun ⟨h, h₁, h₂⟩ => ⟨h, h₁, h₂⟩⟩

/-! ## Programs in parts -/

theorem ofLines_append (before after : List Line) :
    ofLines (before ++ after) = ofLines before ++ ofLines after :=
  List.filterMap_append

theorem ofLines_cons_of_ok {line : Line} {i : Instruction} (h : line.reading? = some (.ok i))
    (lines : List Line) : ofLines (line :: lines) = i :: ofLines lines := by
  rw [ofLines, List.filterMap_cons_some (b := i) (by rw [h]; rfl)]
  rfl

theorem ofLines_cons_of_none {line : Line} (h : line.reading? = none) (lines : List Line) :
    ofLines (line :: lines) = ofLines lines := by
  rw [ofLines, List.filterMap_cons_none (by rw [h]; rfl)]
  rfl

theorem size_append (p q : Program) : size (p ++ q) = p.size + q.size :=
  List.countP_append

theorem labelsFrom_append (n : Nat) (p q : Program) :
    labelsFrom n (p ++ q) = labelsFrom n p ++ labelsFrom (n + p.size) q := by
  induction p generalizing n with
  | nil => rfl
  | cons i p ih =>
    have hsize : size (i :: p) = size p + if i.isExecutable then 1 else 0 := List.countP_cons
    cases i with
    | address | compute =>
      simp only [List.cons_append, labelsFrom, ih, hsize, Instruction.isExecutable, if_true]
      rw [Nat.add_assoc, Nat.add_comm 1]
    | label | unrecognized =>
      simp only [List.cons_append, labelsFrom, ih, hsize, Instruction.isExecutable, Bool.false_eq_true,
        if_false, Nat.add_zero]

theorem map_fst_labelsFrom (n : Nat) (p : Program) : (labelsFrom n p).map Prod.fst = p.labelNames := by
  fun_induction labelsFrom n p with
  | case1 => rfl
  | case2 n name p ih => exact congrArg (name :: ·) ih
  | case3 n _ p ih => exact ih
  | case4 n _ _ _ p ih => exact ih
  | case5 n _ p ih => exact ih

theorem le_of_mem_labelsFrom {n : Nat} {p : Program} {b : String × Int} (h : b ∈ labelsFrom n p) : (n : Int) ≤ b.2 := by
  fun_induction labelsFrom n p with
  | case1 => simp at h
  | case2 n name p ih =>
    rcases List.mem_cons.1 h with rfl | h
    · exact Int.le_refl _
    · exact ih h
  | case3 n _ p ih => have := ih h; omega
  | case4 n _ _ _ p ih => have := ih h; omega
  | case5 n _ p ih => exact ih h

/-! ## Fresh symbols -/

theorem fresh_cons_none {i : Instruction} (h : i.symbol? = none) (known : List String) (p : Program) :
    fresh known (i :: p) = fresh known p := by
  rw [fresh, List.filterMap_cons_none h, fresh]

theorem fresh_cons_known {i : Instruction} {name : String} {known : List String} (h : i.symbol? = some name)
    (hk : name ∈ known) (p : Program) : fresh known (i :: p) = fresh known p := by
  rw [fresh, List.filterMap_cons_some h, List.filter_cons_of_neg (by simpa using hk), fresh]

theorem fresh_cons_new {i : Instruction} {name : String} {known : List String} (h : i.symbol? = some name)
    (hk : name ∉ known) (p : Program) : fresh known (i :: p) = name :: fresh (known ++ [name]) p := by
  rw [fresh, List.filterMap_cons_some h, List.filter_cons_of_pos (by simpa using hk), List.eraseDups_cons,
    List.filter_filter, fresh]
  congr 3
  funext x
  by_cases hx : x = name <;> simp [hx]

theorem mem_fresh {name : String} {known : List String} {p : Program} :
    name ∈ p.fresh known ↔ name ∈ p.filterMap Instruction.symbol? ∧ name ∉ known := by
  rw [fresh, List.mem_eraseDups, List.mem_filter, decide_eq_true_eq]

theorem nodup_fresh (known : List String) (p : Program) : (p.fresh known).Nodup := by
  induction p generalizing known with
  | nil => exact .nil
  | cons i p ih =>
    cases h : i.symbol? with
    | none => rw [fresh_cons_none h]; exact ih known
    | some name =>
      by_cases hk : name ∈ known
      · rw [fresh_cons_known h hk]
        exact ih known
      · rw [fresh_cons_new h hk, List.nodup_cons, mem_fresh]
        exact ⟨fun hm => hm.2 (by simp), ih _⟩

theorem fresh_append (known : List String) (p q : Program) :
    fresh known (p ++ q) = fresh known p ++ fresh (known ++ fresh known p) q := by
  induction p generalizing known with
  | nil =>
    show fresh known q = fresh (known ++ []) q
    rw [List.append_nil]
  | cons i p ih =>
    rw [List.cons_append]
    cases h : i.symbol? with
    | none => rw [fresh_cons_none h, fresh_cons_none h, ih]
    | some name =>
      by_cases hk : name ∈ known
      · rw [fresh_cons_known h hk, fresh_cons_known h hk, ih]
      · rw [fresh_cons_new h hk, fresh_cons_new h hk, ih, List.cons_append, List.append_assoc,
          List.singleton_append]

end Program

/-! ## Consecutive addresses -/

theorem map_fst_numbered (n : Int) (names : List String) : (numbered n names).map Prod.fst = names := by
  induction names generalizing n with
  | nil => rfl
  | cons name names ih => rw [numbered, List.map_cons, ih]

theorem numbered_append (n : Int) (xs ys : List String) :
    numbered n (xs ++ ys) = numbered n xs ++ numbered (n + xs.length) ys := by
  induction xs generalizing n with
  | nil => simp [numbered]
  | cons x xs ih =>
    rw [List.cons_append, numbered, numbered, ih, List.cons_append, List.length_cons]
    congr 3
    push_cast
    omega

theorem mem_numbered {n : Int} {names : List String} {b : String × Int} (h : b ∈ numbered n names) :
    n ≤ b.2 ∧ b.2 < n + names.length := by
  induction names generalizing n with
  | nil => simp [numbered] at h
  | cons name names ih =>
    rw [List.length_cons]
    rcases List.mem_cons.1 h with rfl | h
    · show n ≤ n ∧ n < _
      omega
    · have := ih h
      omega

theorem mem_numbered_map {f : Nat → String} {xs : List Nat} {x : Nat} (h : x ∈ xs) (n : Int) :
    (f x, n + xs.idxOf x) ∈ numbered n (xs.map f) := by
  induction xs generalizing n with
  | nil => cases h
  | cons y xs ih =>
    rw [List.map_cons, numbered]
    by_cases hxy : x = y
    · subst hxy
      rw [List.idxOf_cons_self, Nat.cast_zero, Int.add_zero]
      exact List.mem_cons_self
    · have hnext : n + ((xs.idxOf x + 1 : Nat) : Int) = n + 1 + xs.idxOf x := by
        push_cast
        omega
      rw [List.idxOf_cons_ne _ (Ne.symm hxy), hnext]
      exact List.mem_cons_of_mem _ (ih (List.mem_of_ne_of_mem hxy h) (n + 1))

end HackToolchain
