import HackToolchain.Path
/-!
What a run shows: text on the output, and messages with a level on the error output. Messages
other than errors are shown only to those who asked for them, and their levels are coloured on a
terminal. An interaction is an action on the host that shows things on the way and may end early.
-/

namespace HackToolchain.CommandLine

inductive Level where
  | info
  | warning
  | error
deriving DecidableEq, Repr

namespace Level

def text : Level → String
  | info => "INFO"
  | warning => "WARNING"
  | error => "ERROR"

/-- The terminal's code for the colour of a level. -/
def colour : Level → String
  | info => "\x1b[94m"
  | warning => "\x1b[93m"
  | error => "\x1b[91m"

end Level

structure Console where
  /-- Whether the error output is a terminal. -/
  terminal : Bool := false
  out : String := ""
  err : String := ""
deriving DecidableEq, Repr

namespace Console

/-- Shows one line on the output. -/
def print (line : String) (c : Console) : Console :=
  { c with out := c.out ++ line ++ "\n" }

/-- Shows text on the error output. -/
def complain (text : String) (c : Console) : Console :=
  { c with err := c.err ++ text }

/-- The level as it begins a message. -/
def tag (c : Console) (level : Level) : String :=
  let plain := "[" ++ level.text ++ "]"
  if c.terminal then level.colour ++ plain ++ "\x1b[0m" else plain

/-- Shows a message, if it is an error or is asked for. -/
def message (level : Level) (text : String) (asked : Bool) (c : Console) : Console :=
  if asked || level = .error then c.complain (c.tag level ++ " " ++ text ++ "\n") else c

end Console

/-- An action on the host `m` that shows things and may end early with `ε`. What was shown before
the end stays shown. -/
abbrev Interaction (ε : Type) (m : Type → Type) := ExceptT ε (StateT Console m)

namespace Interaction

variable {m : Type → Type} [Monad m] {ε α : Type}

/-- Changes what is shown. -/
def display (change : Console → Console) : Interaction ε m Unit :=
  ExceptT.lift (modify change)

/-- Shows lines on the output. -/
def printLines (lines : List String) : Interaction ε m Unit :=
  display fun c => lines.foldl (fun c line => c.print line) c

/-- Has the host do something. -/
def onHost (action : m α) : Interaction ε m α :=
  ExceptT.lift (StateT.lift action)

/-- Has the host do something that may fail, and ends with the failure if it does. -/
def onHostOr (ending : δ → ε) (action : m (Except δ α)) : Interaction ε m α := do
  match ← onHost action with
  | .ok a => return a
  | .error failure => throw (ending failure)

end Interaction

/-- What a program is called that runs from the directory of its sources. -/
def uninstalledName : String := "__main__.py"

/-- The name a program goes by: the one it is told, or else the last name of the path it was
started with. -/
def programName (told : Option String) (startedAs : String) : String :=
  match told with
  | some name => if name == "" then (Path.ofString startedAs).name else name
  | none => (Path.ofString startedAs).name

/-- Advises to install a program that is not. -/
def adviseInstallation (program : String) (c : Console) : Console :=
  if program == uninstalledName then
    c.message .warning
      ("Running with prog == '" ++ uninstalledName ++ "', consider proper installation!") true
  else c

end HackToolchain.CommandLine
