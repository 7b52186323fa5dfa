import HackToolchain.Machine.Word
/-!
The data memory: one word for each of the 32768 addresses. Reading after writing gives the word
written, and every other cell keeps its word.
-/

namespace HackToolchain

structure Memory where
  cells : Vector Word 32768
deriving DecidableEq

namespace Memory

/-- Every cell is zero. -/
def zero : Memory :=
  ⟨Vector.replicate 32768 0⟩

def read (m : Memory) (a : Address) : Word :=
  have := a.isLt
  m.cells[a.toNat]

def write (m : Memory) (a : Address) (w : Word) : Memory :=
  ⟨m.cells.set a.toNat w a.isLt⟩

@[simp] theorem read_zero (a : Address) : zero.read a = 0 := by
  simp [read, zero]

theorem read_write (m : Memory) (a b : Address) (w : Word) :
    (m.write a w).read b = if b = a then w else m.read b := by
  by_cases h : b = a
  · subst h
    simp [read, write]
  · have : a.toNat ≠ b.toNat := fun e => h (BitVec.eq_of_toNat_eq e.symm)
    simp [read, write, h, this]

/-- The cells from one address up to another, as far as there are any. -/
def range (m : Memory) (first last : Nat) : List Word :=
  (m.cells.toList.take last).drop first

/-- The cells that are not zero, with their addresses, in order. -/
def nonzero (m : Memory) : List (Nat × Word) :=
  m.cells.toList.zipIdx.filterMap fun (w, a) => if w == 0 then none else some (a, w)

end Memory

end HackToolchain
