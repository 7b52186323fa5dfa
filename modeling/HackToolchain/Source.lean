import HackToolchain.Path
import HackToolchain.Text.Blank
import HackToolchain.Text.Numeral
/-!
Source lines and their locations. A raw line is text as it was written; a located line has
already been freed of its comment and the blanks around it and knows where it stood. Both kinds
can be assembled, translated and loaded: `Line.content` is the text that counts.
-/

namespace HackToolchain

/-- Where a line stood: in a file, or inside the toolchain. Rows count from zero. -/
inductive Location where
  | file (path : Path) (row : Int)
  | internal (row : Int)
deriving DecidableEq, Repr

namespace Location

/-- The location as it is shown, with rows counted from one. -/
def text : Location → String
  | file path row => "'" ++ path.name ++ ":" ++ Text.decimal (row + 1) ++ "'"
  | internal _ => "'(hackforge-toolchain-internals)'"

/-- The end of a headline that tells where something happened. -/
def describe : Option Location → String
  | none => ""
  | some location => " at " ++ location.text

/-- A row of a file, or of no file. -/
def ofRow (file? : Option Path) (row : Int) : Location :=
  match file? with
  | some path => file path row
  | none => internal row

end Location

/-- A line of source. -/
inductive Line where
  | raw (text : String)
  | located (text : String) (location : Option Location)
deriving DecidableEq, Repr

/-- The characters before the first `//`. -/
def beforeComment : List Char → List Char
  | [] => []
  | '/' :: '/' :: _ => []
  | c :: cs => c :: beforeComment cs

/-- A line without its comment and without the blanks at its ends. -/
def stripComment (line : String) : String :=
  String.ofList (Text.trim (beforeComment line.toList))

namespace Line

/-- The text that counts. -/
def content : Line → String
  | raw text => stripComment text
  | located text _ => text

def location : Line → Option Location
  | raw _ => none
  | located _ location => location

end Line

/-- The lines that hold more than blanks and comments, each with its row. -/
def meaningfulLines (file? : Option Path) (lines : List String) : List Line :=
  lines.zipIdx.filterMap fun (line, row) =>
    let text := stripComment line
    if text == "" then none else some (.located text (some (.ofRow file? row)))

end HackToolchain
