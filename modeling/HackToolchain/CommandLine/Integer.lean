import HackToolchain.Text.Blank
import HackToolchain.Text.DecimalDigit
import HackToolchain.Text.Numeral
/-!
Integers given as option values. Blanks around the number are allowed, then a sign, then decimal
digits of any script with single underscores between them. The four separators of information
blocks are blanks elsewhere but not here.
-/

namespace HackToolchain.CommandLine

/-- The blanks that may surround a number. -/
def isPadding (c : Char) : Bool :=
  Text.isBlank c && !(0x1C ≤ c.toNat && c.toNat ≤ 0x1F)

/-- Digits, each of which may have one underscore before it. -/
def underscoredDigits : List Char → Option (List Nat)
  | [] => some []
  | '_' :: c :: cs => do return (← Text.digitValue? c) :: (← underscoredDigits cs)
  | c :: cs => do return (← Text.digitValue? c) :: (← underscoredDigits cs)

/-- A number without a sign. -/
def magnitude? (cs : List Char) : Option Nat :=
  match cs with
  | [] | '_' :: _ => none
  | _ => do
    let digits ← underscoredDigits cs
    if Text.digitLimit < digits.length then none else some (Text.ofDigits digits)

/-- The number a text is. -/
def integer? (text : String) : Option Int :=
  match Text.trimBoth isPadding text.toList with
  | '-' :: cs => (magnitude? cs).map fun n => -(n : Int)
  | '+' :: cs => (magnitude? cs).map fun n => (n : Int)
  | cs => (magnitude? cs).map fun n => (n : Int)

end HackToolchain.CommandLine
