import HackToolchain.Build
import HackToolchain.Proofs.FileTree
import Mathlib
/-!
Builds on a tree of files. Every build makes an outcome of the lines of its source, without
touching the tree, and then delivers it: the lines of an outcome that has any are written to the
output, and a failure leaves the tree as it is.
-/

namespace HackToolchain.Build

variable {α : Type} {source output : Path} {t u : FileTree}

/-- What is made of the lines of a source that may be unreadable. -/
def ofSource (make : List Line → Outcome α) (source : Path) (t : FileTree) : Outcome α :=
  match (t.read source).bind (sourceLines source) with
  | .ok lines => make lines
  | .error failure => ⟨.error failure, []⟩

/-- An outcome that has been delivered, and the tree after that. -/
def delivered (output : Path) (outcome : Outcome (List String × α)) (t : FileTree) : Outcome α × FileTree :=
  match outcome.result with
  | .error failure => (⟨.error failure, outcome.warnings⟩, t)
  | .ok (lines, a) =>
    match FileTree.write output (Text.unlines lines).toUTF8 t with
    | .ok () t => (⟨.ok a, outcome.warnings⟩, t)
    | .error failure t => (⟨.error failure, outcome.warnings⟩, t)

theorem deliver_run (output : Path) (outcome : Outcome (List String × α)) (t : FileTree) :
    (deliver output outcome : StateM FileTree (Outcome α)).run t = delivered output outcome t := by
  obtain ⟨result, warnings⟩ := outcome
  cases result with
  | error failure => rfl
  | ok made =>
    have hwrite : (writeLines output made.1 : StateM FileTree _).run t =
        FileTree.attempt (FileTree.write output (Text.unlines made.1).toUTF8) t := rfl
    simp only [deliver, delivered, StateT.run_bind, hwrite, FileTree.attempt, EStateM.run]
    cases FileTree.write output (Text.unlines made.1).toUTF8 t with
    | ok _ u => rfl
    | error failure u => rfl

theorem readLines_run (path : Path) (t : FileTree) :
    (readLines path : StateM FileTree _).run t = ((t.read path).bind (sourceLines path), t) := by
  have hhost : (Host.read path : StateM FileTree _).run t = (t.read path, t) := rfl
  simp only [readLines, StateT.run_bind, hhost]
  cases t.read path <;> rfl

/-- A build that delivers what it makes of the lines of its source. -/
theorem process_run (make : List Line → Outcome (List String × α)) (source output : Path) (t : FileTree) :
    (do match ← readLines source with
        | .error failure => return ⟨.error failure, []⟩
        | .ok lines => deliver output (make lines) : StateM FileTree (Outcome α)).run t =
      delivered output (ofSource make source t) t := by
  simp only [StateT.run_bind, readLines_run, ofSource]
  cases (t.read source).bind (sourceLines source) with
  | error failure => rfl
  | ok lines => exact deliver_run output (make lines) t

theorem assembleFile_run (source output : Path) (strict : Bool) (t : FileTree) :
    (assembleFile source output strict : StateM FileTree _).run t =
      delivered output (ofSource (assembled strict) source t) t :=
  process_run _ source output t

theorem translateFile_run (source output : Path) (options : Translator.Options) (t : FileTree) :
    (translateFile source output options : StateM FileTree _).run t =
      delivered output (ofSource (fun lines =>
        { translated source options lines with result := (translated source options lines).result.map (·, ()) })
        source t) t :=
  process_run _ source output t

theorem buildFile_run (source output : Path) (options : Translator.Options) (strict : Bool) (t : FileTree) :
    (buildFile source output options strict : StateM FileTree _).run t =
      delivered output (ofSource (built source options strict) source t) t :=
  process_run _ source output t

end HackToolchain.Build
