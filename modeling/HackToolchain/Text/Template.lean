import HackToolchain.Text.Numeral
import HackToolchain.Text.Quoted
/-!
Templates with named values. A field begins with `%`; it may name its value in parentheses, then
come flags, a width, a precision and a letter for the size, of which only the alignment to the
left, the width and the precision matter to texts, and a last letter that says how the value is
written. A field that names no value stands for what the field before it left, at first all values
together. Two percent signs stand for one. The template is read by one step for each character.
-/

namespace HackToolchain.Text

/-- What a field stands for. -/
inductive FieldValue where
  | all
  | text (text : String)
deriving DecidableEq, Repr

namespace FieldValue

def kind : FieldValue → String
  | all => "dict"
  | text _ => "str"

end FieldValue

/-- Why a template cannot be filled in. -/
inductive TemplateFault where
  | unclosedName
  | unknownName (name : String)
  | unfinishedField
  | noValue
  | sizeNotNumber
  | widthTooBig
  | precisionTooBig
  | notNumber (letter : Char) (value : FieldValue)
  | notInteger (letter : Char) (value : FieldValue)
  | notReal (value : FieldValue)
  | notCharacter
  | unknownLetter (letter : Char) (index : Nat)
deriving DecidableEq, Repr

namespace TemplateFault

def shownLetter (c : Char) : Char :=
  if 31 ≤ c.toNat && c.toNat ≤ 126 then c else '?'

def message : TemplateFault → String
  | unclosedName => "incomplete format key"
  | unknownName name => name
  | unfinishedField => "incomplete format"
  | noValue => "not enough arguments for format string"
  | sizeNotNumber => "* wants int"
  | widthTooBig => "width too big"
  | precisionTooBig => "precision too big"
  | notNumber letter value =>
    "%" ++ letter.toString ++ " format: a real number is required, not " ++ value.kind
  | notInteger letter value =>
    "%" ++ letter.toString ++ " format: an integer is required, not " ++ value.kind
  | notReal value => "must be real number, not " ++ value.kind
  | notCharacter => "%c requires int or char"
  | unknownLetter letter index =>
    "unsupported format character '" ++ (shownLetter letter).toString ++ "' (0x" ++
      String.ofList (Nat.toDigits 16 letter.toNat) ++ ") at index " ++ decimal index

end TemplateFault

/-- How the text of a field is placed. -/
structure Field where
  left : Bool := false
  width : Nat := 0
  precision : Option Nat := none
deriving DecidableEq, Repr

namespace Field

def widthLimit : Nat := 9223372036854775807

def precisionLimit : Nat := 2147483647

/-- A text cut to the precision and filled up with spaces to the width. -/
def place (f : Field) (cs : List Char) : List Char :=
  let cs := match f.precision with
    | some n => cs.take n
    | none => cs
  let spaces := List.replicate (f.width - cs.length) ' '
  if f.left then cs ++ spaces else spaces ++ cs

end Field

inductive TemplatePhase where
  | text
  | opened
  /-- In a name, inside this many parentheses, with its characters last first. -/
  | name (depth : Nat) (read : List Char)
  | flags (field : Field)
  | width (field : Field)
  | point (field : Field)
  | precision (field : Field)
  | size (field : Field)
deriving DecidableEq, Repr

structure Filling where
  phase : TemplatePhase := .text
  /-- What the next field without a name stands for. -/
  available : Option FieldValue := some .all
  index : Nat := 0
  /-- The text written so far, last character first. -/
  written : List Char := []
deriving DecidableEq, Repr

def shownValues (values : List (String × String)) : String :=
  "\x7b" ++ ", ".intercalate (values.map fun (name, value) => quoted name ++ ": " ++ quoted value) ++
    "\x7d"

def asciiOnly (cs : List Char) : List Char :=
  cs.flatMap fun c => if c.toNat < 0x80 then [c] else codeEscape c.toNat

namespace Filling

def enter (s : Filling) (phase : TemplatePhase) : Except TemplateFault Filling :=
  .ok { s with phase }

def digit (c : Char) : Nat :=
  c.toNat - '0'.toNat

def take (s : Filling) : Except TemplateFault FieldValue :=
  match s.available with
  | some value => .ok value
  | none => .error .noValue

def write (s : Filling) (field : Field) (text : String) : Filling :=
  { s with
    phase := .text, available := none,
    written := (field.place text.toList).reverse ++ s.written }

/-- Ends a field with the letter that says how its value is written. -/
def close (values : List (String × String)) (s : Filling) (field : Field) (letter : Char) :
    Except TemplateFault Filling := do
  let value ← s.take
  let plain := match value with
    | .all => shownValues values
    | .text text => text
  let shown := match value with
    | .all => shownValues values
    | .text text => quoted text
  match letter with
  | 's' => .ok (s.write field plain)
  | 'r' => .ok (s.write field shown)
  | 'a' => .ok (s.write field (String.ofList (asciiOnly shown.toList)))
  | 'd' | 'i' | 'u' => .error (.notNumber letter value)
  | 'o' | 'x' | 'X' => .error (.notInteger letter value)
  | 'e' | 'E' | 'f' | 'F' | 'g' | 'G' => .error (.notReal value)
  | 'c' =>
    if value != .all && plain.length == 1 then .ok (s.write { field with precision := none } plain)
    else .error .notCharacter
  | _ => .error (.unknownLetter letter s.index)

def afterPrecision (values : List (String × String)) (s : Filling) (field : Field) (c : Char) :
    Except TemplateFault Filling :=
  if c == 'h' || c == 'l' || c == 'L' then s.enter (.size field) else s.close values field c

def afterWidth (values : List (String × String)) (s : Filling) (field : Field) (c : Char) :
    Except TemplateFault Filling :=
  if c == '.' then s.enter (.point { field with precision := some 0 })
  else s.afterPrecision values field c

def amongFlags (values : List (String × String)) (s : Filling) (field : Field) (c : Char) :
    Except TemplateFault Filling :=
  if c == '-' then s.enter (.flags { field with left := true })
  else if c == '+' || c == ' ' || c == '#' || c == '0' then s.enter (.flags field)
  else if c == '*' then do
    let _ ← s.take
    .error .sizeNotNumber
  else if c.isDigit then s.enter (.width { field with width := digit c })
  else s.afterWidth values field c

/-- What a character does to the filling. -/
def read (values : List (String × String)) (s : Filling) (c : Char) :
    Except TemplateFault Filling :=
  match s.phase with
  | .text =>
    if c == '%' then s.enter .opened else .ok { s with written := c :: s.written }
  | .opened =>
    if c == '%' then .ok { s with phase := .text, written := '%' :: s.written }
    else if c == '(' then s.enter (.name 1 [])
    else s.amongFlags values {} c
  | .name depth begun =>
    if c == '(' then s.enter (.name (depth + 1) (c :: begun))
    else if c != ')' then s.enter (.name depth (c :: begun))
    else if 1 < depth then s.enter (.name (depth - 1) (c :: begun))
    else
      let name := String.ofList begun.reverse
      match values.lookup name with
      | some value => .ok { s with phase := .flags {}, available := some (.text value) }
      | none => .error (.unknownName name)
  | .flags field => s.amongFlags values field c
  | .width field =>
    if c.isDigit then
      let width := 10 * field.width + digit c
      if Field.widthLimit < width then .error .widthTooBig
      else s.enter (.width { field with width })
    else s.afterWidth values field c
  | .point field =>
    if c == '*' then do
      let _ ← s.take
      .error .sizeNotNumber
    else if c.isDigit then s.enter (.precision { field with precision := some (digit c) })
    else s.afterPrecision values field c
  | .precision field =>
    if c.isDigit then
      let precision := 10 * field.precision.getD 0 + digit c
      if Field.precisionLimit < precision then .error .precisionTooBig
      else s.enter (.precision { field with precision := some precision })
    else s.afterPrecision values field c
  | .size field => s.close values field c

def step (values : List (String × String)) (s : Filling) (c : Char) :
    Except TemplateFault Filling :=
  (s.read values c).map fun s => { s with index := s.index + 1 }

def finish (s : Filling) : Except TemplateFault String :=
  match s.phase with
  | .text => .ok (String.ofList s.written.reverse)
  | .name .. => .error .unclosedName
  | _ => .error .unfinishedField

end Filling

/-- A template with its fields filled in. -/
def fillTemplate (values : List (String × String)) (template : String) :
    Except TemplateFault String := do
  (← template.toList.foldlM (Filling.step values) {}).finish

end HackToolchain.Text
