import HackToolchain.CommandLine.Session
/-!
The program: a session on the files of the machine it runs on.
-/

namespace HackToolchain.Disk

/-- What an error of the system means for the file it was about. -/
def accessFault (path : Path) : IO.Error → AccessFault
  | .noFileOrDirectory _ code reason | .interrupted _ code reason
  | .alreadyExists _ code reason | .invalidArgument _ code reason
  | .permissionDenied _ code reason | .resourceExhausted _ code reason
  | .inappropriateType _ code reason | .noSuchThing _ code reason
  | .resourceBusy code reason | .resourceVanished code reason
  | .unsupportedOperation code reason | .hardwareFault code reason
  | .unsatisfiedConstraints code reason | .illegalOperation code reason
  | .protocolError code reason | .timeExpired code reason | .otherError code reason =>
    .system code.toNat reason (some path.text)
  | .unexpectedEof => .plain "unexpected end of file"
  | .userError text => .plain text

/-- Uses the file at a path. -/
def access (path : Path) (action : String → IO α) : IO (Except Failure α) := do
  if path.text.contains (Char.ofNat 0) then return .error .nulInPath
  try return .ok (← action path.text)
  catch e => return .error (.inaccessible (accessFault path e))

/-- Whether a path can be opened. -/
def opens (path : Path) : IO (Except Failure Unit) :=
  access path fun file => do
    let _ ← IO.FS.Handle.mk file .read

def present (path : Path) : IO (Except Failure Bool) := do
  match ← opens path with
  | .ok () => return .ok true
  | .error .nulInPath => return .ok false
  | .error (.inaccessible fault) =>
    -- What may not be opened is there.
    if fault.leadsNowhere then return .ok false
    else if let .system 13 _ _ := fault then return .ok true
    else return .error (.inaccessible fault)
  | .error failure => return .error failure

/-- Makes one directory unless it exists. -/
def ensureDirectory (path : Path) : IO (Except Failure Unit) := do
  match ← access path fun file => IO.FS.createDir file with
  | .ok () => return .ok ()
  | .error failure =>
    match ← access path fun file => discard (IO.FS.Handle.mk (file ++ "/.") .read) with
    | .ok () => return .ok ()
    | .error _ => return .error failure

/-- Makes the directory whose names, the last one first, are `names`, and before it every
directory on the way that is missing. -/
def ensureDirectories (anchor : Anchor) : (names : List String) → IO (Except Failure Unit)
  | [] => ensureDirectory ⟨anchor, []⟩
  | name :: above => do
    let path : Path := ⟨anchor, (name :: above).reverse⟩
    match ← ensureDirectory path with
    | .error (.inaccessible (.system 2 _ _)) =>
      match ← ensureDirectories anchor above with
      | .ok () => ensureDirectory path
      | .error failure => return .error failure
    | done => return done

/-- Writes a file, with the directories above it. -/
def write (path : Path) (content : ByteArray) : IO (Except Failure Unit) := do
  match ← ensureDirectories path.anchor path.names.dropLast.reverse with
  | .ok () => access path fun file => IO.FS.writeBinFile file content
  | .error failure => return .error failure

instance : Host IO where
  present := present
  read path := access path fun file => IO.FS.readBinFile file
  write := write
  clock := IO.monoNanosNow

end HackToolchain.Disk

open HackToolchain CommandLine in
def main (words : List String) : IO UInt32 := do
  let out ← IO.getStdout
  let err ← IO.getStderr
  let invocation : Invocation :=
    { startedAs := (← IO.appPath).toString, words, version := some "0.1.0", platform := "native",
      runtime := "none" }
  let (stopped, console) ← Session.run (session invocation) (← err.isTty)
  out.putStr console.out
  err.putStr console.err
  match stopped with
  | .ok () => return 0
  | .error (.exit code) => return code.toNat.toUInt32
  | .error (.escape failure) =>
    err.putStrLn failure.message
    return 1
