/-!
Words of the machine. A word is written as sixteen characters `0` and `1`, most significant bit
first, and read back from exactly such text; as a number it is taken in two's complement.
-/

namespace HackToolchain

/-- A machine word. -/
abbrev Word := BitVec 16

/-- An address of either memory. -/
abbrev Address := BitVec 15

/-- The bits of a vector, most significant first. -/
def bits {n : Nat} (v : BitVec n) : String :=
  String.ofList ((List.range n).map fun i => if v.getMsbD i then '1' else '0')

namespace Word

/-- The word a number has modulo 2^16. -/
def ofInt (n : Int) : Word :=
  BitVec.ofInt 16 n

/-- The number a word stands for in two's complement. -/
def signed (w : Word) : Int :=
  w.toInt

/-- The cell that a word points to: its top bit is not looked at. -/
def address (w : Word) : Address :=
  w.setWidth 15

/-- The number with these binary digits. -/
def ofBinary (cs : List Char) : Nat :=
  cs.foldl (fun n c => 2 * n + if c == '1' then 1 else 0) 0

/-- The text of a word: sixteen characters `0` and `1`. -/
def isText (cs : List Char) : Bool :=
  cs.length == 16 && cs.all fun c => c == '0' || c == '1'

/-- Reads the text of a word. -/
def ofText? (cs : List Char) : Option Word :=
  if isText cs then some (BitVec.ofNat 16 (ofBinary cs)) else none

end Word

end HackToolchain
