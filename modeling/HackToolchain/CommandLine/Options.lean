import HackToolchain.CommandLine.Integer
import HackToolchain.Text.Quoted
/-!
The grammar of the command line. A word that begins with a hyphen is an option if it is one of
the spellings, or a spelling with something attached by `=`, or a one-letter spelling with
anything attached; negative numbers and words with a space in them are plain, and after `--` every
word is. What is attached to an option with a value is the value, and `--` is none; what is
attached to a flag of one letter is read as more options of one letter, the last of which may have
a value. Plain words are taken as sources where they first stand together; any that come later,
like options that do not exist, are refused in the end.
-/

namespace HackToolchain.CommandLine

inductive Opt where
  | help
  | version
  | output
  | format
  | strict
  | verbose
  | symbols
  | comments
  | tempBase
  | execute
  | cycles
  | unwrapErrors
deriving DecidableEq, Repr

namespace Opt

def spellings : Opt → List String
  | help => ["-h", "--help"]
  | version => ["--version"]
  | output => ["--output", "-o"]
  | format => ["--output-format", "-of"]
  | strict => ["--strict"]
  | verbose => ["--verbose", "-v"]
  | symbols => ["--symbols"]
  | comments => ["--comments"]
  | tempBase => ["--temp-base"]
  | execute => ["--execute", "-e"]
  | cycles => ["--cycles"]
  | unwrapErrors => ["--debug-unwrap-errors"]

/-- Whether the option needs a value. -/
def takesValue : Opt → Bool
  | output | format | tempBase | cycles => true
  | help | version | strict | verbose | symbols | comments | execute | unwrapErrors => false

def all : List Opt :=
  [help, version, output, format, strict, verbose, symbols, comments, tempBase, execute, cycles,
   unwrapErrors]

def ofSpelling? (text : String) : Option Opt :=
  all.find? (·.spellings.contains text)

/-- The option spelled with a hyphen and this letter. -/
def ofLetter? (c : Char) : Option Opt :=
  ofSpelling? (String.ofList ['-', c])

/-- The option in messages. -/
def title (o : Opt) : String :=
  "/".intercalate o.spellings

end Opt

/-- What comes out. -/
inductive Format where
  | hack
  | asm
deriving DecidableEq, Repr

namespace Format

def text : Format → String
  | hack => "hack"
  | asm => "asm"

def suffix : Format → String
  | hack => ".hack"
  | asm => ".asm"

def ofText? (text : String) : Option Format :=
  [hack, asm].find? (·.text == text)

end Format

/-- Why a command line is refused. -/
inductive Refusal where
  | unrecognized (words : List String)
  | valueMissing (opt : Opt)
  | valueIgnored (opt : Opt) (text : String)
  | notInteger (opt : Opt) (text : String)
  | notFormat (opt : Opt) (text : String)
deriving DecidableEq, Repr

namespace Refusal

def message : Refusal → String
  | unrecognized words => "unrecognized arguments: " ++ " ".intercalate words
  | valueMissing opt => "argument " ++ opt.title ++ ": expected one argument"
  | valueIgnored opt text =>
    "argument " ++ opt.title ++ ": ignored explicit argument " ++ Text.quoted text
  | notInteger opt text => "argument " ++ opt.title ++ ": invalid int value: " ++ Text.quoted text
  | notFormat opt text =>
    "argument " ++ opt.title ++ ": invalid choice: " ++ Text.quoted text ++
      " (choose from 'hack', 'asm')"

end Refusal

/-- A word of the command line, by its kind. -/
inductive Token where
  | plain (text : String)
  | separator
  | option (opt : Opt) (short : Bool) (attached : Option (List Char))
  | unknown (text : String)
deriving DecidableEq, Repr

/-- A numeral with digits of any script, possibly with a point before its last digits. -/
def isNumberBody (cs : List Char) : Bool :=
  match cs.dropWhile Text.isDecimalDigit with
  | [] => !cs.isEmpty
  | '.' :: rest => !rest.isEmpty && rest.all Text.isDecimalDigit
  | _ => false

/-- What follows the hyphen of a negative number. One line feed may end it. -/
def isNegativeNumber (cs : List Char) : Bool :=
  isNumberBody (if cs.getLast? = some '\n' then cs.dropLast else cs)

namespace Token

/-- The kind of a word that begins with a hyphen and is no spelling of an option. -/
def ofDashed (text : String) (rest : List Char) : Token :=
  let spelling := String.ofList (text.toList.takeWhile (· != '='))
  match Opt.ofSpelling? spelling, text.toList.dropWhile (· != '=') with
  | some opt, _ :: value => .option opt (rest.head? != some '-') (some value)
  | _, _ =>
    match rest with
    | [] => .plain text
    | c :: value =>
      match Opt.ofLetter? c with
      | some opt => .option opt true (some value)
      | none => if isNegativeNumber rest || text.contains ' ' then .plain text else .unknown text

def ofWord (text : String) : Token :=
  match text.toList with
  | '-' :: rest =>
    match Opt.ofSpelling? text with
    | some opt => .option opt (rest.head? != some '-') none
    | none => ofDashed text rest
  | _ => .plain text

/-- The kinds of all words. -/
def ofWords : List String → List Token
  | [] => []
  | "--" :: words => .separator :: words.map .plain
  | word :: words => ofWord word :: ofWords words

end Token

/-- What an option with a value says. -/
inductive Entry (α : Type) where
  | value (a : α)
  /-- The option was given, and no value with it. -/
  | blank
deriving DecidableEq, Repr

/-- What the options say. -/
structure Settings where
  sources : List String := []
  /-- Empty if it is not given or left blank. -/
  output : String := ""
  format : Entry (Option Format) := .value none
  version : Bool := false
  strict : Bool := false
  verbose : Bool := false
  symbols : Bool := false
  comments : Bool := false
  tempBase : Entry Int := .value 4
  execute : Bool := false
  cycles : Entry Int := .value 1000000
  /-- Whether diagnostics are shown as messages. -/
  friendly : Bool := true
deriving DecidableEq, Repr

/-- Why reading the command line ends early. -/
inductive Halt where
  | help
  | refused (refusal : Refusal)
deriving DecidableEq, Repr

namespace Settings

/-- The effect of a flag. -/
def withFlag (s : Settings) : Opt → Except Halt Settings
  | .help => .error .help
  | .version => .ok { s with version := true }
  | .strict => .ok { s with strict := true }
  | .verbose => .ok { s with verbose := true }
  | .symbols => .ok { s with symbols := true }
  | .comments => .ok { s with comments := true }
  | .execute => .ok { s with execute := true }
  | .unwrapErrors => .ok { s with friendly := false }
  | .output | .format | .tempBase | .cycles => .ok s

/-- The effect of an option with a value. -/
def withValue (s : Settings) (opt : Opt) (text : String) : Except Halt Settings :=
  match opt with
  | .output => .ok { s with output := text }
  | .format =>
    match Format.ofText? text with
    | some format => .ok { s with format := .value (some format) }
    | none => .error (.refused (.notFormat opt text))
  | .tempBase =>
    match integer? text with
    | some n => .ok { s with tempBase := .value n }
    | none => .error (.refused (.notInteger opt text))
  | .cycles =>
    match integer? text with
    | some n => .ok { s with cycles := .value n }
    | none => .error (.refused (.notInteger opt text))
  | _ => .ok s

/-- The effect of an option that is left blank. -/
def withBlank (s : Settings) : Opt → Settings
  | .output => { s with output := "" }
  | .format => { s with format := .blank }
  | .tempBase => { s with tempBase := .blank }
  | .cycles => { s with cycles := .blank }
  | _ => s

end Settings

/-- How a word with options in it ends. -/
inductive BundleEnd where
  | flag (opt : Opt)
  | value (opt : Opt) (text : String)
  | blank (opt : Opt)
  /-- The option takes its value from the next word. -/
  | needsValue (opt : Opt)
deriving DecidableEq, Repr

/-- Flags that share a word, and how the word ends. -/
structure Bundle where
  flags : List Opt
  last : BundleEnd
deriving DecidableEq, Repr

namespace Bundle

/-- An option with nothing attached. -/
def single (opt : Opt) : Bundle :=
  ⟨[], if opt.takesValue then .needsValue opt else .flag opt⟩

/-- An option that takes what is attached as its value. -/
def ofValue (opt : Opt) (text : String) : Bundle :=
  ⟨[], if text == "--" then .blank opt else .value opt text⟩

/-- Cuts what is attached to an option into flags and a value. A flag that cannot make an option
of the letter after it refuses all that is attached to it. -/
def ofAttached (opt : Opt) (short : Bool) (attached : List Char) : Except Refusal Bundle :=
  if opt.takesValue then .ok (ofValue opt (String.ofList attached))
  else
    match attached with
    | [] => .error (.valueIgnored opt "")
    | c :: cs =>
      match if short then Opt.ofLetter? c else none with
      | none => .error (.valueIgnored opt (String.ofList (c :: cs)))
      | some next =>
        let rest := if cs.isEmpty then .ok (single next) else ofAttached next true cs
        rest.map fun bundle => { bundle with flags := opt :: bundle.flags }

def ofToken (opt : Opt) (short : Bool) : Option (List Char) → Except Refusal Bundle
  | none => .ok (single opt)
  | some attached => ofAttached opt short attached

end Bundle

/-- How far the plain words have been taken. -/
inductive Sources where
  | none
  /-- Being taken, the last one first. -/
  | taking (words : List String)
  | taken
deriving DecidableEq, Repr

/-- The state of reading a command line. -/
structure Reading where
  settings : Settings := {}
  sources : Sources := .none
  /-- What nothing could be made of, in order. -/
  extras : List String := []
deriving DecidableEq, Repr

namespace Reading

/-- Ends a run of plain words. -/
def closeSources (r : Reading) : Reading :=
  match r.sources with
  | .taking words =>
    { r with settings := { r.settings with sources := words.reverse }, sources := .taken }
  | .none | .taken => r

/-- Takes a plain word. The separator itself is no source. -/
def plainWord (r : Reading) (text : String) (isSeparator : Bool) : Reading :=
  match r.sources with
  | .none => { r with sources := .taking (if isSeparator then [] else [text]) }
  | .taking words => { r with sources := .taking (if isSeparator then words else text :: words) }
  | .taken => { r with extras := r.extras ++ [text] }

def extra (r : Reading) (text : String) : Reading :=
  { r with extras := r.extras ++ [text] }

def withSettings (r : Reading) (settings : Settings) : Reading :=
  { r with settings }

/-- Reads the words from left to right. -/
def readTokens (r : Reading) : List Token → Except Halt Reading
  | [] => .ok r.closeSources
  | .plain text :: rest => (r.plainWord text false).readTokens rest
  | .separator :: rest => (r.plainWord "--" true).readTokens rest
  | .unknown text :: rest => (r.closeSources.extra text).readTokens rest
  | .option opt short attached :: rest => do
    let r := r.closeSources
    let bundle ← (Bundle.ofToken opt short attached).mapError .refused
    match bundle.last, rest with
    | .needsValue opt, .plain value :: rest =>
      let settings ← bundle.flags.foldlM Settings.withFlag r.settings
      (r.withSettings (← settings.withValue opt value)).readTokens rest
    | .needsValue opt, _ => .error (.refused (.valueMissing opt))
    | .value opt value, rest =>
      let settings ← bundle.flags.foldlM Settings.withFlag r.settings
      (r.withSettings (← settings.withValue opt value)).readTokens rest
    | .blank opt, rest =>
      let settings ← bundle.flags.foldlM Settings.withFlag r.settings
      (r.withSettings (settings.withBlank opt)).readTokens rest
    | .flag opt, rest =>
      let settings ← bundle.flags.foldlM Settings.withFlag r.settings
      (r.withSettings (← settings.withFlag opt)).readTokens rest

end Reading

/-- The settings a command line makes. -/
def readSettings (words : List String) : Except Halt Settings := do
  let r ← Reading.readTokens {} (Token.ofWords words)
  if r.extras.isEmpty then return r.settings
  else .error (.refused (.unrecognized r.extras))

end HackToolchain.CommandLine
