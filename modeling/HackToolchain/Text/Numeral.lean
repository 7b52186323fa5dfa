/-!
Decimal numerals. Reading and writing are both bounded: a numeral of more than `digitLimit`
digits is refused, leading zeros included, and so is a number that would need more.
-/

namespace HackToolchain.Text

/-- The most digits a numeral may have. -/
def digitLimit : Nat := 4300

/-- Why a numeral is refused. -/
inductive NumeralFault where
  /-- The text read has this many digits, too many. -/
  | tooLong (digits : Nat)
  /-- The number to be written has too many digits. -/
  | tooWide
deriving DecidableEq, Repr

namespace NumeralFault

def message : NumeralFault → String
  | tooLong digits =>
    "Exceeds the limit (4300 digits) for integer string conversion: value has " ++ digits.repr ++
      " digits; use sys.set_int_max_str_digits() to increase the limit"
  | tooWide =>
    "Exceeds the limit (4300 digits) for integer string conversion; " ++
      "use sys.set_int_max_str_digits() to increase the limit"

end NumeralFault

/-- A numeral: one or more ASCII digits. -/
def isNumeral (cs : List Char) : Bool :=
  !cs.isEmpty && cs.all Char.isDigit

/-- The number that decimal digits denote, most significant first. -/
def ofDigits (digits : List Nat) : Nat :=
  digits.foldl (fun n d => 10 * n + d) 0

/-- The number a numeral denotes. -/
def numeralValue (cs : List Char) : Nat :=
  ofDigits (cs.map fun c => c.toNat - '0'.toNat)

/-- Reads a numeral. -/
def readNumeral (cs : List Char) : Except NumeralFault Nat :=
  if digitLimit < cs.length then .error (.tooLong cs.length) else .ok (numeralValue cs)

/-- A number in decimal, with a sign when it is negative. -/
def decimal : Int → String
  | .ofNat n => n.repr
  | .negSucc n => "-" ++ (n + 1).repr

/-- Writes a number in decimal. -/
def writeNumeral (n : Int) : Except NumeralFault String :=
  if digitLimit < n.natAbs.repr.length then .error .tooWide else .ok (decimal n)

end HackToolchain.Text
