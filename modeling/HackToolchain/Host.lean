import HackToolchain.FileTree
/-!
What the toolchain asks of the system it runs on: whether a path denotes anything, the bytes of a
file, writing a file, and the time. `FileTree` answers these questions as a value, which is how
statements about a whole run are made; the program answers them with the files of the machine.
-/

namespace HackToolchain

class Host (m : Type → Type) where
  present : Path → m (Except Failure Bool)
  read : Path → m (Except Failure ByteArray)
  /-- Writes a file, with the directories above it. -/
  write : Path → ByteArray → m (Except Failure Unit)
  /-- Nanoseconds since some fixed moment. -/
  clock : m Nat

namespace FileTree

/-- Makes an operation that may fail one that answers with the failure. -/
def attempt (operation : OnTree α) : StateM FileTree (Except Failure α) := fun t =>
  match operation.run t with
  | .ok a t => (.ok a, t)
  | .error failure t => (.error failure, t)

end FileTree

/-- A tree of files is a system on which no time passes. -/
instance : Host (StateM FileTree) where
  present p := do return (← get).present p
  read p := do return (← get).read p
  write p content := FileTree.attempt (FileTree.write p content)
  clock := return 0

end HackToolchain
