import HackToolchain.Assembler
import HackToolchain.Host
import HackToolchain.Text.Lines
import HackToolchain.Text.Utf8
import HackToolchain.Translator
/-!
From source file to output file: assembling, translating, and both in one go. A file is read as
UTF-8 and written as lines that each end with a line feed. The output is written only when
everything before it succeeded; warnings are handed back whether it did or not.
-/

namespace HackToolchain.Build

variable {m : Type → Type} [Monad m] [Host m]

/-- The place of a fault in a file. What the end of the file cut off is counted from the unread
rest, which begins with it. -/
def faultOffset : Text.Utf8Fault → Nat
  | .invalid offset => offset
  | .cutOff _ => 0

/-- The lines of a file that count. -/
def sourceLines (path : Path) (content : ByteArray) : Except Failure (List Line) :=
  match Text.decodeUtf8 content with
  | .ok cs => .ok (meaningfulLines (some path) (Text.lines cs))
  | .error fault => .error (.undecodable (faultOffset fault))

/-- Reads the lines of a file that count. -/
def readLines (path : Path) : m (Except Failure (List Line)) := do
  match ← Host.read path with
  | .ok content => return sourceLines path content
  | .error failure => return .error failure

/-- Writes lines to a file. -/
def writeLines (path : Path) (lines : List String) : m (Except Failure Unit) :=
  Host.write path (Text.unlines lines).toUTF8

/-- How a build ended: with a value or a failure, after these warnings. -/
structure Outcome (α : Type) where
  result : Except Failure α
  warnings : List String := []

/-- Translated code, or the failure, with the warnings. -/
def translated (source : Path) (options : Translator.Options) (lines : List Line) :
    Outcome (List String) :=
  match translateLines source.stem options lines with
  | .ok code t => ⟨.ok code, t.warnings.toList⟩
  | .error failure t => ⟨.error failure, t.warnings.toList⟩

/-- Words as text and the symbols of the run, or the failure, with the warnings. -/
def assembled (strict : Bool) (lines : List Line) : Outcome (List String × SymbolTable) :=
  match assembleLines strict lines with
  | .ok words s => ⟨.ok (words.map bits, s.symbols), s.warnings.toList⟩
  | .error failure s => ⟨.error failure, s.warnings.toList⟩

/-- Writes the lines of an outcome, if it has any, and keeps the rest of it. -/
def deliver (output : Path) (outcome : Outcome (List String × α)) : m (Outcome α) := do
  match outcome.result with
  | .error failure => return ⟨.error failure, outcome.warnings⟩
  | .ok (lines, a) =>
    match ← writeLines output lines with
    | .ok () => return ⟨.ok a, outcome.warnings⟩
    | .error failure => return ⟨.error failure, outcome.warnings⟩

/-- Assembles a file. -/
def assembleFile (source output : Path) (strict : Bool) : m (Outcome SymbolTable) := do
  match ← readLines source with
  | .error failure => return ⟨.error failure, []⟩
  | .ok lines => deliver output (assembled strict lines)

/-- Translates a file; its name without suffix is the name of the unit. -/
def translateFile (source output : Path) (options : Translator.Options) : m (Outcome Unit) := do
  match ← readLines source with
  | .error failure => return ⟨.error failure, []⟩
  | .ok lines =>
    let code := translated source options lines
    deliver output { code with result := code.result.map (·, ()) }

/-- Translates and then assembles the lines of a source. -/
def built (source : Path) (options : Translator.Options) (strict : Bool) (lines : List Line) :
    Outcome (List String × SymbolTable) :=
  let code := translated source options lines
  match code.result with
  | .error failure => ⟨.error failure, code.warnings⟩
  | .ok assembly =>
    let words := assembled strict (assembly.map Line.raw)
    { words with warnings := code.warnings ++ words.warnings }

/-- Translates a file and assembles the result. -/
def buildFile (source output : Path) (options : Translator.Options) (strict : Bool) :
    m (Outcome SymbolTable) := do
  match ← readLines source with
  | .error failure => return ⟨.error failure, []⟩
  | .ok lines => deliver output (built source options strict lines)

end HackToolchain.Build
