import HackToolchain.Failure
/-!
A tree of files and directories, and what the file operations do to it. A place is the list of
names from a file up to the root. Paths are resolved name by name from the root or from the
working directory: `..` goes up, only a directory can be entered, and a name or a path that is
too long is refused. Operations that fail keep what they did before they failed.

There are no links and no special files: what stands at a place is a directory or the bytes of a
file. A tree comes with the access rights of the process to what stands in it, and to what it may
come to make there. They may be any, and no operation changes them.
-/

namespace HackToolchain

/-- The names from a place up to the root, its own name first. -/
abbrev Place := List String

inductive Node where
  | directory
  | file (content : ByteArray)

def Node.isDirectory : Node → Bool
  | .directory => true
  | .file _ => false

/-- What may be done with a file or a directory. -/
structure Rights where
  read : Bool := true
  /-- The bytes of a file may be replaced, or names be added to a directory. -/
  write : Bool := true
  /-- Names may be looked up in a directory. -/
  search : Bool := true
deriving DecidableEq, Repr

structure FileTree where
  /-- What stands at each place but the root, which is a directory. -/
  nodes : List (Place × Node) := []
  /-- The place of the working directory. -/
  here : Place := []
  /-- What may be done with what stands at a place, or once something is made there. -/
  rights : Place → Rights := fun _ => {}

/-- An operation on the tree. -/
abbrev OnTree := EStateM Failure FileTree

namespace FileTree

def node? (t : FileTree) (place : Place) : Option Node :=
  if place = [] then some .directory else (t.nodes.find? (·.1 == place)).map (·.2)

/-- Puts a node at a place, in the place of what stood there. -/
def put (t : FileTree) (place : Place) (node : Node) : FileTree :=
  if t.nodes.any (·.1 == place) then
    { t with nodes := t.nodes.map fun entry => if entry.1 == place then (place, node) else entry }
  else { t with nodes := t.nodes ++ [(place, node)] }

/-- The most bytes in a name. -/
def nameLimit : Nat := 255

/-- Paths have fewer bytes than this. -/
def pathLimit : Nat := 4096

/-- Refuses what the system does not take for a path. -/
def checkPath (p : Path) : Except Failure Unit :=
  if p.text.contains (Char.ofNat 0) then .error .nulInPath
  else if pathLimit ≤ p.text.utf8ByteSize then .error (.inaccessible (.nameTooLong p.text))
  else .ok ()

/-- Refuses a place where no name can be looked up. The text `file` is the path in reports. -/
def checkSearch (t : FileTree) (file : String) (place : Place) : Except Failure Unit :=
  match t.node? place with
  | none => .error (.inaccessible (.missing file))
  | some (.file _) => .error (.inaccessible (.notDirectory file))
  | some .directory =>
    if (t.rights place).search then .ok () else .error (.inaccessible (.denied file))

/-- Where a name leads from a place. -/
def step (t : FileTree) (file : String) (place : Place) (name : String) : Except Failure Place := do
  t.checkSearch file place
  if name = ".." then .ok place.tail
  else if nameLimit < name.utf8ByteSize then .error (.inaccessible (.nameTooLong file))
  else if (t.node? (name :: place)).isSome then .ok (name :: place)
  else .error (.inaccessible (.missing file))

/-- Where the names of a path lead from a place. -/
def walk (t : FileTree) (file : String) (place : Place) (names : List String) :
    Except Failure Place :=
  names.foldlM (t.step file) place

/-- The place a path starts from. -/
def origin (t : FileTree) (p : Path) : Place :=
  match p.anchor with
  | .relative => t.here
  | .root | .doubleRoot => []

/-- The place from which the names of a path are followed. -/
def start (t : FileTree) (p : Path) : Except Failure Place := do
  checkPath p
  -- Such a path is `.`, and that is looked up too.
  if p.anchor = .relative ∧ p.names = [] then t.checkSearch p.text t.here
  return t.origin p

/-- The place of an existing file or directory. -/
def resolve (t : FileTree) (p : Path) : Except Failure Place := do
  t.walk p.text (← t.start p) p.names

/-- Whether something stands at a path. A path that leads nowhere, or through a file, denotes
nothing; a path that is refused for its length, or that cannot be followed for lack of a right, is
reported. -/
def present (t : FileTree) (p : Path) : Except Failure Bool :=
  match t.resolve p with
  | .ok _ => .ok true
  | .error .nulInPath => .ok false
  | .error (.inaccessible fault) =>
    if fault.leadsNowhere then .ok false else .error (.inaccessible fault)
  | .error failure => .error failure

/-- Whether a path denotes a directory. -/
def presentDirectory (t : FileTree) (p : Path) : Except Failure Bool := do
  if ← t.present p then
    return (t.node? (← t.resolve p)).any Node.isDirectory
  else return false

/-- The bytes of a file. -/
def read (t : FileTree) (p : Path) : Except Failure ByteArray := do
  let place ← t.resolve p
  match t.node? place, (t.rights place).read with
  | none, _ => .error (.inaccessible (.missing p.text))
  | some _, false => .error (.inaccessible (.denied p.text))
  | some .directory, true => .error (.inaccessible (.isDirectory p.text))
  | some (.file content), true => .ok content

/-- What a path that may not exist yet denotes: a directory that was there all along, or a name
in a directory. -/
inductive Target where
  | fixed
  | entry (directory : Place) (name : String)
deriving DecidableEq, Repr

/-- Resolves all but the last name of a path. -/
def target (t : FileTree) (p : Path) : Except Failure Target := do
  let place ← t.start p
  match p.names.getLast? with
  | none => .ok .fixed
  | some name =>
    let directory ← t.walk p.text place p.names.dropLast
    t.checkSearch p.text directory
    if name = ".." then .ok .fixed
    else if nameLimit < name.utf8ByteSize then .error (.inaccessible (.nameTooLong p.text))
    else .ok (.entry directory name)

/-- The place where a directory can be made. -/
def placeForDirectory (t : FileTree) (p : Path) : Except Failure Place := do
  match ← t.target p with
  | .fixed => .error (.inaccessible (.occupied p.text))
  | .entry directory name =>
    if (t.node? (name :: directory)).isSome then .error (.inaccessible (.occupied p.text))
    else if (t.rights directory).write then .ok (name :: directory)
    else .error (.inaccessible (.denied p.text))

/-- Makes one directory. -/
def makeDirectory (p : Path) : OnTree Unit := do
  let t ← get
  let place ← MonadExcept.ofExcept (t.placeForDirectory p)
  set (t.put place .directory)

/-- Makes one directory unless it exists. -/
def ensureDirectory (p : Path) : OnTree Unit := do
  try makeDirectory p
  catch failure =>
    match failure with
    | .inaccessible fault =>
      if fault = .missing p.text then throw failure
      else if ← MonadExcept.ofExcept ((← get).presentDirectory p) then return
      else throw failure
    | _ => throw failure

/-- Makes the directory whose names, the last one first, are `names`, and before it every
directory on the way that is missing. -/
def ensureDirectories (anchor : Anchor) : (names : List String) → OnTree Unit
  | [] => ensureDirectory ⟨anchor, []⟩
  | name :: above => do
    let p : Path := ⟨anchor, (name :: above).reverse⟩
    try ensureDirectory p
    catch failure =>
      if failure = .inaccessible (.missing p.text) then
        ensureDirectories anchor above
        ensureDirectory p
      else throw failure

/-- The place where a file can be replaced, or made if it is missing. What is made can be written
whatever rights it gets. -/
def placeForFile (t : FileTree) (p : Path) : Except Failure Place := do
  match ← t.target p with
  | .fixed => .error (.inaccessible (.isDirectory p.text))
  | .entry directory name =>
    match t.node? (name :: directory) with
    | some .directory => .error (.inaccessible (.isDirectory p.text))
    | some (.file _) =>
      if (t.rights (name :: directory)).write then .ok (name :: directory)
      else .error (.inaccessible (.denied p.text))
    | none =>
      if (t.rights directory).write then .ok (name :: directory)
      else .error (.inaccessible (.denied p.text))

/-- Replaces the content of a file, which is made if it is missing. -/
def replace (p : Path) (content : ByteArray) : OnTree Unit := do
  let t ← get
  let place ← MonadExcept.ofExcept (t.placeForFile p)
  set (t.put place (.file content))

/-- Writes a file, with the directories above it. -/
def write (p : Path) (content : ByteArray) : OnTree Unit := do
  ensureDirectories p.anchor p.names.dropLast.reverse
  replace p content

end FileTree

end HackToolchain
