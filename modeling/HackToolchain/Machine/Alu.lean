import HackToolchain.Machine.Word
/-!
The arithmetic unit. Six control bits say what is done to each operand, whether they are added or
combined bit by bit, and whether the result is complemented. `Alu.onIntegers` is the same circuit
on integers of any size in two's complement, cut down to a word at the end.
-/

namespace HackToolchain

namespace Alu

/-- An operand made zero, then complemented, as its two control bits say. -/
def prepare (zero complement : Bool) (x : Word) : Word :=
  let x := if zero then 0 else x
  if complement then ~~~x else x

/-- The result of the unit. -/
def output (control : BitVec 6) (x y : Word) : Word :=
  let x := prepare (control.getLsbD 5) (control.getLsbD 4) x
  let y := prepare (control.getLsbD 3) (control.getLsbD 2) y
  let out := if control.getLsbD 1 then x + y else x &&& y
  if control.getLsbD 0 then ~~~out else out

/-- The complement of an integer in two's complement. -/
def complement (n : Int) : Int :=
  -n - 1

/-- The bits two integers share, in two's complement of any width. -/
def conjunction : Int → Int → Int
  | .ofNat m, .ofNat n => .ofNat (m &&& n)
  | .ofNat m, .negSucc n => .ofNat (Nat.bitwise (fun a b => a && !b) m n)
  | .negSucc m, .ofNat n => .ofNat (Nat.bitwise (fun a b => a && !b) n m)
  | .negSucc m, .negSucc n => .negSucc (m ||| n)

def prepareInteger (zero complemented : Bool) (n : Int) : Int :=
  let n := if zero then 0 else n
  if complemented then complement n else n

/-- The result of the unit on integers. -/
def onIntegers (control : BitVec 6) (x y : Int) : Word :=
  let x := prepareInteger (control.getLsbD 5) (control.getLsbD 4) x
  let y := prepareInteger (control.getLsbD 3) (control.getLsbD 2) y
  let out := if control.getLsbD 1 then x + y else conjunction x y
  Word.ofInt (if control.getLsbD 0 then complement out else out)

/-- Whether three jump bits let a result jump: one bit each for below, equal to and above zero. -/
def jumps (jump : BitVec 3) (out : Word) : Bool :=
  (jump.getLsbD 2 && out.signed < 0) || (jump.getLsbD 1 && out.signed == 0) ||
    (jump.getLsbD 0 && 0 < out.signed)

end Alu

end HackToolchain
