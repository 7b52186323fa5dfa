import HackToolchain.Failure
import HackToolchain.Platform
import Std.Data.HashMap
/-!
Symbols and their addresses, in the order in which they were bound. Looking a name up goes
through a hash index; that the index always agrees with the list of bindings is part of the type,
so everything about a table can be said of the list. Labels are bound once, at an address the
caller gives, variables on first use, at the next free address.
-/

namespace HackToolchain

/-- The first binding of a name in a list of bindings. -/
def binding? (name : String) : List (String × Int) → Option Int
  | [] => none
  | (n, address) :: rest => if n = name then some address else binding? name rest

theorem binding?_append (name : String) (xs ys : List (String × Int)) :
    binding? name (xs ++ ys) = (binding? name xs).or (binding? name ys) := by
  induction xs with
  | nil => rfl
  | cons x xs ih =>
    obtain ⟨n, address⟩ := x
    simp only [List.cons_append, binding?]
    split <;> simp [ih]

structure SymbolTable where
  bindings : Array (String × Int)
  index : Std.HashMap String Int
  /-- The address the next variable gets. -/
  next : Int
  agrees : ∀ name, index[name]? = binding? name bindings.toList

namespace SymbolTable

/-- The bindings in order. -/
def toList (t : SymbolTable) : List (String × Int) :=
  t.bindings.toList

def size (t : SymbolTable) : Nat :=
  t.bindings.size

/-- The address of a name. -/
def get? (t : SymbolTable) (name : String) : Option Int :=
  t.index[name]?

theorem get?_eq (t : SymbolTable) (name : String) : t.get? name = binding? name t.toList :=
  t.agrees name

def contains (t : SymbolTable) (name : String) : Bool :=
  (t.get? name).isSome

/-- Binds a name that is not bound yet. -/
def bind (t : SymbolTable) (name : String) (address : Int) (free : t.get? name = none) :
    SymbolTable where
  bindings := t.bindings.push (name, address)
  index := t.index.insert name address
  next := t.next
  agrees n := by
    have free := (t.get?_eq name).symm.trans free
    simp only [Array.toList_push, binding?_append, Std.HashMap.getElem?_insert, t.agrees n]
    by_cases h : name = n
    · subst h
      simp only [toList] at free
      simp [free, binding?]
    · simp [h, binding?]

@[simp] theorem toList_bind (t : SymbolTable) (name : String) (address : Int) (free) :
    (t.bind name address free).toList = t.toList ++ [(name, address)] := by
  simp [bind, toList]

def empty : SymbolTable where
  bindings := #[]
  index := {}
  next := Platform.variableBase
  agrees name := by simp [binding?]

/-- Binds a name unless it is bound already. -/
def bindNew (t : SymbolTable) (entry : String × Int) : SymbolTable :=
  match free : t.get? entry.1 with
  | none => t.bind entry.1 entry.2 free
  | some _ => t

/-- The table every assembly starts with. -/
def predefined : SymbolTable :=
  Platform.predefinedSymbols.foldl bindNew empty

/-- Binds a label. Inlined, so that a caller that keeps the table for the failing case does not
have it copied in the other. -/
@[inline] def add (t : SymbolTable) (name : String) (address : Int) (location : Option Location) :
    Except Failure SymbolTable :=
  match free : t.get? name with
  | some bound => .error (Cause.at (.duplicateLabel name bound) location)
  | none =>
    if 0 ≤ address && address < Platform.addressSpace then .ok (t.bind name address free)
    else
      .error
        (Cause.at (.addressSpaceExhausted address Platform.addressSpace .instructions) location)

/-- The address of a symbol, which becomes a new variable if it is not bound. Inlined like `add`. -/
@[inline] def getOrAllocate (t : SymbolTable) (name : String) (location : Option Location) :
    Except Failure (Int × SymbolTable) :=
  match free : t.get? name with
  | some bound => .ok (bound, t)
  | none =>
    if t.next < Platform.variableLimit then
      .ok (t.next, { t.bind name t.next free with next := t.next + 1 })
    else
      .error
        (Cause.at (.addressSpaceExhausted t.next Platform.variableLimit .data) location)

/-- The bindings beyond the predefined ones. -/
def added (t : SymbolTable) : List (String × Int) :=
  t.toList.drop Platform.predefinedSymbols.length

end SymbolTable

end HackToolchain
