import HackToolchain.CommandLine.Goal
/-!
A session from the command line to the exit code. Whatever a goal ends with becomes a message and
an exit code, unless it is a failure that no message is made for: that one leaves the session.
-/

namespace HackToolchain.CommandLine

/-- How a goal can end. -/
inductive Ending where
  /-- Without saying which exit code it wants. -/
  | returned
  | exited (code : Int)
  | interrupted
  | failed (failure : Failure)
deriving DecidableEq

section

variable {m : Type → Type} [Monad m] [Host m]

/-- Ends the session as the ending of a goal demands. Without `friendly`, diagnostics leave the
session instead of being shown. -/
def conclude (friendly : Bool) : Ending → Session m Unit
  | .returned => Session.abort "Goal returned without exit code, this is an bug in Hackforge CLI"
  | .exited code => Session.exit code
  | .interrupted => do
    Interaction.printLines [""]
    Interaction.display (Console.message .info "Interrupted by user (Ctrl+C)!" true)
    Session.exit 0
  | .failed (.diagnosed diagnostic) =>
    if friendly then Session.abort diagnostic.message
    else throw (.escape (.diagnosed diagnostic))
  | .failed (.undecodable offset) =>
    Session.abort ("Source file is not valid UTF-8 text (byte " ++ Text.decimal offset ++
      " cannot be decoded)")
  | .failed (.inaccessible fault) =>
    Session.abort ("Cannot access `" ++ fault.file?.getD "None" ++ "`: " ++ fault.reason)
  | .failed failure => throw (.escape failure)

/-- A time in seconds with two decimals. -/
def seconds (nanoseconds : Nat) : String :=
  let hundredths := (nanoseconds + 5000000) / 10000000
  Text.decimal (hundredths / 100 : Nat) ++ "." ++ Text.decimal (hundredths / 10 % 10 : Nat) ++
    Text.decimal (hundredths % 10 : Nat)

/-- Performs a request and concludes the session. The time is shown of goals that succeed. -/
def fulfil (i : Invocation) (r : Request) : Session m Unit := do
  let start ← Interaction.onHost Host.clock
  match ← ExceptT.lift (ExceptT.run (perform i r)) with
  | .error failure => conclude r.friendly (.failed failure)
  | .ok () =>
    let stop ← Interaction.onHost Host.clock
    Interaction.display (Console.message .info
      ("Performing an goal took " ++ seconds (stop - start) ++ " seconds!") r.verbose)
    conclude r.friendly (.exited 0)

def session (i : Invocation) : Session m Unit := do
  let program := programName none i.startedAs
  Interaction.display (adviseInstallation program)
  fulfil i (← readRequest program i.words)

/-- Runs a session to its end: the value it returned or how it stopped, and all it showed. -/
def Session.run (action : Session m α) (terminal : Bool) : m (Except Stop α × Console) :=
  StateT.run (ExceptT.run action) { terminal }

end

end HackToolchain.CommandLine
