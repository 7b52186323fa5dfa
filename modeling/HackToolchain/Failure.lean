import HackToolchain.Diagnostic
import HackToolchain.Text.Quoted
import HackToolchain.Text.Template
/-!
Everything an operation of the toolchain can fail with. A diagnostic is about the source; a
breach is a call that its caller had no right to make; the others come from numerals, paths and
files.
-/

namespace HackToolchain

/-- A call made when it may not be made. -/
inductive Breach where
  | labelsAlreadyResolved
  | labelsNotResolved
  | assemblerFinalized
  | translatorFinalized
  | emptyCommand
  | popIntoConstant
  | negativeConstant
  /-- No code is known for the operation of this name. -/
  | unhandledOperation (title : String)
  | programTooLarge
  | steppedWhenHalted
  | fileLocationWithoutFile
  | formatLeftBlank
deriving DecidableEq, Repr

namespace Breach

def message : Breach → String
  | labelsAlreadyResolved => "Labels are already resolved"
  | labelsNotResolved =>
    "Labels must be resolved before translation, otherwise variables may shadow forward labels"
  | assemblerFinalized => "Assembler run is already finalized"
  | translatorFinalized => "Translator run is already finalized"
  | emptyCommand => "Expected non-empty command line"
  | popIntoConstant => "Constant is never an pop target"
  | negativeConstant => "Constants are loaded via address instruction, must be non-negative"
  | unhandledOperation title => "Unhandled arithmetic operation ArithmeticOperation." ++ title
  | programTooLarge => "Program does not fit into instruction memory"
  | steppedWhenHalted => "Cannot step halted CPU"
  | fileLocationWithoutFile => ""
  | formatLeftBlank => ""

end Breach

/-- A file that could not be used: the system's error number, its wording and the file, or only a
text. -/
inductive AccessFault where
  | system (code : Int) (reason : String) (file : Option String)
  | plain (text : String)
deriving DecidableEq, Repr

namespace AccessFault

def missing (file : String) : AccessFault :=
  .system 2 "No such file or directory" (some file)

def denied (file : String) : AccessFault :=
  .system 13 "Permission denied" (some file)

def occupied (file : String) : AccessFault :=
  .system 17 "File exists" (some file)

def notDirectory (file : String) : AccessFault :=
  .system 20 "Not a directory" (some file)

def isDirectory (file : String) : AccessFault :=
  .system 21 "Is a directory" (some file)

def nameTooLong (file : String) : AccessFault :=
  .system 36 "File name too long" (some file)

/-- The file that could not be used, if the fault names one. -/
def file? : AccessFault → Option String
  | system _ _ file => file
  | plain _ => none

/-- The fault in full. -/
def text : AccessFault → String
  | system code reason file =>
    "[Errno " ++ Text.decimal code ++ "] " ++ reason ++
      (match file with
        | some f => ": " ++ Text.quoted f
        | none => "")
  | plain text => text

/-- The system's wording, or the fault in full where the system gave none. -/
def reason : AccessFault → String
  | fault@(system _ reason _) => if reason == "" then fault.text else reason
  | plain text => text

/-- The path led nowhere, or through something that is no directory. -/
def leadsNowhere : AccessFault → Bool
  | system code _ _ => code = 2 || code = 20
  | plain _ => false

end AccessFault

inductive Failure where
  | diagnosed (diagnostic : Diagnostic)
  | breach (breach : Breach)
  | numeral (fault : Text.NumeralFault)
  /-- A table has no entry for this key. -/
  | missingKey (key : String)
  /-- The cells of this segment have no address before the program runs. -/
  | noFixedAddress (segment : String)
  /-- A list has no item at the index that is asked for. -/
  | outOfRange
  /-- A number is needed where none was given. -/
  | numberLeftBlank
  /-- A text of the program cannot be filled in. -/
  | template (fault : Text.TemplateFault)
  /-- The path has no name that could be given a suffix. -/
  | namelessPath (path : Path)
  /-- The path holds the character that ends names for the system. -/
  | nulInPath
  /-- The bytes of a file are not text from this offset on. -/
  | undecodable (offset : Nat)
  | inaccessible (fault : AccessFault)
  /-- A failure of something else, with its text. -/
  | foreign (text : String)
deriving DecidableEq, Repr

namespace Failure

def message : Failure → String
  | diagnosed diagnostic => diagnostic.message
  | breach b => b.message
  | numeral fault => fault.message
  | missingKey key => key
  | noFixedAddress segment => "Segment " ++ segment ++ " has no address known at translation time"
  | outOfRange => "list index out of range"
  | numberLeftBlank =>
    "int() argument must be a string, a bytes-like object or a real number, not 'list'"
  | template fault => fault.message
  | namelessPath path => "PosixPath(" ++ Text.quoted path.text ++ ") has an empty name"
  | nulInPath => "embedded null byte"
  | undecodable offset => "byte " ++ offset.repr
  | inaccessible fault => fault.text
  | foreign text => text

end Failure

/-- The location of a row in a file, which has to be known. -/
def Location.inFile (file? : Option Path) (row : Int) : Except Failure Location :=
  match file? with
  | some path => .ok (.file path row)
  | none => .error (.breach .fileLocationWithoutFile)

/-- A failure about the source, met at `location`. -/
def Cause.at (cause : Cause) (location : Option Location) : Failure :=
  .diagnosed ⟨cause, location⟩

end HackToolchain
