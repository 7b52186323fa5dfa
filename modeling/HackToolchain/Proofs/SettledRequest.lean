import HackToolchain.CommandLine.Session
import HackToolchain.Proofs.RefusedPaths
import Mathlib
/-!
What a command line settles, and what stops a session before it has a request. Reading and checking
change no file and show nothing unless they stop. They stop with a message, or with a failure that
nothing handles: an option was left blank, the source is too long to be looked up or behind a directory
that may not be searched, the version is asked for with a source that has no name to infer an output
from, or the program has a name that cannot be shown. A request that comes out is the settings with one
source, a format and an output that belong together.
-/

namespace HackToolchain.CommandLine

/-! ## Interactions on a tree -/

namespace Interaction

variable {ε δ α β : Type}

/-- An interaction on a tree: how it ends, with what is shown, and the tree after it. -/
def onTree (x : Interaction ε (StateM FileTree) α) (c : Console) (t : FileTree) : (Except ε α × Console) × FileTree :=
  StateT.run (StateT.run (ExceptT.run x) c) t

theorem onTree_bind (x : Interaction ε (StateM FileTree) α) (f : α → Interaction ε (StateM FileTree) β) (c : Console)
    (t : FileTree) : onTree (x >>= f) c t =
      match onTree x c t with
      | ((.ok a, c), t) => onTree (f a) c t
      | ((.error e, c), t) => ((.error e, c), t) := by
  rcases h : onTree x c t with ⟨⟨r, c'⟩, t'⟩
  simp only [onTree] at h
  cases r with
  | ok a =>
    simp only [onTree, ExceptT.run_bind, StateT.run_bind, h]
    rfl
  | error e =>
    simp only [onTree, ExceptT.run_bind, StateT.run_bind, h]
    rfl

theorem onTree_display (change : Console → Console) (c : Console) (t : FileTree) :
    onTree (display change : Interaction ε (StateM FileTree) Unit) c t = ((.ok (), change c), t) :=
  rfl

theorem onTree_onHost (action : StateM FileTree α) (c : Console) (t : FileTree) :
    onTree (onHost action : Interaction ε (StateM FileTree) α) c t = ((.ok (action.run t).1, c), (action.run t).2) :=
  rfl

/-- The ending of an interaction as a value. -/
theorem onTree_run (x : Interaction ε (StateM FileTree) α) (c : Console) (t : FileTree) :
    onTree (ExceptT.lift (ExceptT.run x) : Interaction δ (StateM FileTree) (Except ε α)) c t =
      ((.ok (onTree x c t).1.1, (onTree x c t).1.2), (onTree x c t).2) :=
  rfl

theorem onTree_throw (e : ε) (c : Console) (t : FileTree) :
    onTree (throw e : Interaction ε (StateM FileTree) α) c t = ((.error e, c), t) :=
  rfl

/-! ## Checks -/

variable {t : FileTree} {Q : α → Prop} {R : β → Prop} {E : ε → Prop} {x : Interaction ε (StateM FileTree) α}
  {f : α → Interaction ε (StateM FileTree) β}

/-- On the tree `t` the interaction changes nothing, and shows nothing unless it stops. What it
returns satisfies `Q`, and what it stops with satisfies `E`. -/
def Checks (t : FileTree) (Q : α → Prop) (E : ε → Prop) (x : Interaction ε (StateM FileTree) α) : Prop :=
  ∀ c, (∃ a, Q a ∧ onTree x c t = ((.ok a, c), t)) ∨ ∃ e c', E e ∧ onTree x c t = ((.error e, c'), t)

namespace Checks

theorem pure {a : α} (h : Q a) : Checks t Q E (pure a : Interaction ε (StateM FileTree) α) :=
  fun _ => .inl ⟨a, h, rfl⟩

theorem throw {e : ε} (h : E e) : Checks t Q E (throw e : Interaction ε (StateM FileTree) α) :=
  fun c => .inr ⟨e, c, h, rfl⟩

theorem imp {Q' : α → Prop} {E' : ε → Prop} (hx : Checks t Q E x) (hQ : ∀ a, Q a → Q' a) (hE : ∀ e, E e → E' e) :
    Checks t Q' E' x :=
  fun c => (hx c).imp (fun ⟨a, ha, hr⟩ => ⟨a, hQ a ha, hr⟩) fun ⟨e, c', he, hr⟩ => ⟨e, c', hE e he, hr⟩

theorem bind (hx : Checks t Q E x) (hf : ∀ a, Q a → Checks t R E (f a)) : Checks t R E (x >>= f) := by
  intro c
  rw [onTree_bind]
  rcases hx c with ⟨a, ha, hr⟩ | ⟨e, c', he, hr⟩
  · rw [hr]
    exact hf a ha c
  · rw [hr]
    exact .inr ⟨e, c', he, rfl⟩

/-- Showing something before stopping. -/
theorem display_throw (change : Console → Console) {e : ε} (h : E e) :
    Checks t Q E (do display change; MonadExcept.throw e : Interaction ε (StateM FileTree) α) :=
  fun c => .inr ⟨e, change c, h, rfl⟩

theorem onHostOr {ending : δ → ε} {action : StateM FileTree (Except δ α)} {r : Except δ α}
    (hrun : action.run t = (r, t)) (hE : ∀ failure, r = .error failure → E (ending failure)) :
    Checks t (fun a => r = .ok a) E (onHostOr ending action : Interaction ε (StateM FileTree) α) := by
  intro c
  rw [Interaction.onHostOr, onTree_bind, onTree_onHost, hrun]
  cases r with
  | ok a => exact .inl ⟨a, rfl, rfl⟩
  | error failure => exact .inr ⟨_, c, hE failure rfl, rfl⟩

end Checks

end Interaction

open Interaction

/-! ## Settings that stop a session -/

/-- The failures that leave a session while its settings are checked, and what causes them. -/
inductive Settings.Leak (s : Settings) (t : FileTree) : Failure → Prop
  | format : s.format = .blank → Leak s t (.breach .formatLeftBlank)
  | number : s.tempBase = .blank ∨ s.cycles = .blank → Leak s t .numberLeftBlank
  | nameless {source : Path} {rest : List Path} : s.version = true → s.output = "" →
    s.sources.map Path.ofString = source :: rest → source.name = "" → Leak s t (.namelessPath source)
  | length {source : Path} : s.version = false → s.sources.map Path.ofString = [source] → source.TooLong →
    Leak s t (.inaccessible (.nameTooLong source.text))
  | search {source : Path} : s.version = false → s.sources.map Path.ofString = [source] → t.Barred source →
    Leak s t (.inaccessible (.denied source.text))

/-- How a session stops while its settings are checked. -/
inductive Settings.Stops (s : Settings) (t : FileTree) : Stop → Prop
  | message : Stops s t (.exit 1)
  | leak {failure : Failure} : s.Leak t failure → Stops s t (.escape failure)

/-- How a session stops before it has a request. -/
inductive Invocation.Stops (i : Invocation) (t : FileTree) : Stop → Prop
  | help : readSettings i.words = .error .help → Stops i t (.exit 0)
  | refused {refusal : Refusal} : readSettings i.words = .error (.refused refusal) → Stops i t (.exit 2)
  | nameless {halt : Halt} {fault : Text.TemplateFault} : readSettings i.words = .error halt →
    usage (programName none i.startedAs) = .error fault → Stops i t (.escape (.template fault))
  | checked {s : Settings} {stop : Stop} : readSettings i.words = .ok s → s.Stops t stop → Stops i t stop

/-! ## What is settled -/

/-- The path of a source that can be processed: its suffix is known. -/
def Processable (p : Path) : Prop :=
  p.suffix = assemblySuffix ∨ p.suffix = bytecodeSuffix

/-- The source, format and output of settings that ask for something to be made. -/
structure Settings.Job (s : Settings) (t : FileTree) (source : Path) (format : Format) (output : Path) : Prop where
  sources : s.sources.map Path.ofString = [source]
  processable : Processable source
  present : t.present source = .ok true
  allowed : ∃ requested, s.format = .value requested ∧ inferFormat source requested = some format
  chosen : (if s.output == "" then inferOutput [source] format else .ok (.ofString s.output)) = .ok output
  differs : output ≠ source

/-- The request that settings make. -/
structure Settings.Settles (s : Settings) (t : FileTree) (r : Request) : Prop where
  version : r.version = s.version
  symbols : r.symbols = s.symbols
  strict : r.strict = s.strict
  comments : r.comments = s.comments
  execute : r.execute = s.execute
  friendly : r.friendly = s.friendly
  tempBase : s.tempBase = .value r.tempBase
  cycles : s.cycles = .value r.cycles
  tempBase_nonneg : 0 ≤ r.tempBase
  binary : s.execute = true → r.format = .hack
  job : s.version = false → ∃ source, r.sources = [source] ∧ s.Job t source r.format r.output

section

variable {α : Type} {t : FileTree} {Q : α → Prop} {s : Settings} {E : Stop → Prop}

theorem checks_abort (text : String) (h : E (.exit 1)) :
    Checks t Q E (Session.abort text : Session (StateM FileTree) α) :=
  .display_throw _ h

/-- A check that stops the session with a message unless it is passed. -/
theorem checks_check {b : Prop} [Decidable b] {text : String} {next : Unit → Session (StateM FileTree) α}
    (h : E (.exit 1)) (hnext : ¬ b → Checks t Q E (next ())) :
    Checks t Q E (if b then Session.abort text >>= next else next ()) := by
  by_cases hb : b
  · rw [if_pos hb]
    exact .bind (checks_abort text h) fun _ (hnever : False) => hnever.elim
  · rw [if_neg hb]
    exact hnext hb

theorem checks_checkSources (s : Settings) (t : FileTree) :
    Checks t (fun paths => paths = s.sources.map Path.ofString ∧
        (s.version = false → ∃ p, paths = [p] ∧ Processable p ∧ t.present p = .ok true)) (s.Stops t)
      (checkSources s : Session (StateM FileTree) (List Path)) := by
  unfold checkSources
  dsimp only
  split
  next hversion => exact .pure ⟨rfl, by simp [hversion]⟩
  next hversion =>
  rw [Bool.not_eq_true] at hversion
  split
  · exact checks_abort _ .message
  next path hpath =>
    refine checks_check .message fun hsuffix => ?_
    have hlook : Checks t (fun there => t.present path = .ok there) (s.Stops t)
        (onHostOr .escape (Host.present path) : Session (StateM FileTree) Bool) := by
      refine .onHostOr rfl fun failure hfailure => ?_
      rcases FileTree.present_eq_error hfailure with ⟨rfl, hlong⟩ | ⟨rfl, hbarred⟩
      · exact .leak (.length hversion hpath hlong)
      · exact .leak (.search hversion hpath hbarred)
    refine .bind hlook fun there hthere => ?_
    split
    next hyes =>
      rw [hyes] at hthere
      refine .pure ⟨rfl, fun _ => ⟨path, hpath, ?_, hthere⟩⟩
      simpa [Processable, or_iff_not_imp_left] using hsuffix
    · exact checks_abort _ .message
  · exact checks_abort _ .message

theorem checks_filled {failure : Failure} {entry : Entry α} (h : entry = .blank → E (.escape failure)) :
    Checks t (fun a => entry = .value a) E (filled failure entry : Session (StateM FileTree) α) := by
  cases entry with
  | value a => exact .pure rfl
  | blank => exact .throw (h rfl)

theorem checks_checkFormat (sources : List Path) (requested : Option Format) :
    Checks t (fun format => ∀ source, sources = [source] → inferFormat source requested = some format) (s.Stops t)
      (checkFormat sources requested : Session (StateM FileTree) Format) := by
  unfold checkFormat
  split
  · exact .pure fun source hsource => by cases hsource
  next first rest =>
    split
    next format hformat =>
      refine .pure fun source hsource => ?_
      cases hsource
      exact hformat
    · exact checks_abort _ .message

/-- An output can be inferred unless the first source has no name. -/
theorem inferOutput_eq_error {sources : List Path} {format : Format} {failure : Failure}
    (h : inferOutput sources format = .error failure) :
    ∃ source rest, sources = source :: rest ∧ source.name = "" ∧ failure = .namelessPath source := by
  unfold inferOutput at h
  dsimp only at h
  split at h
  · cases h
  next hsuffix =>
    cases h
    rw [Path.withSuffix?] at hsuffix
    split at hsuffix
    next hname =>
      cases sources with
      | nil => exact absurd hname (by decide)
      | cons source rest => exact ⟨source, rest, rfl, by simpa using hname, rfl⟩
    · cases hsuffix

theorem processable_name {p : Path} (h : Processable p) : p.name ≠ "" := by
  intro hname
  rw [Processable, Path.suffix, hname] at h
  exact absurd h (by decide)

theorem checks_checkOutput {sources : List Path} (format : Format) (hsources : sources = s.sources.map Path.ofString)
    (hnamed : s.version = false → ∃ p, sources = [p] ∧ Processable p ∧ t.present p = .ok true) :
    Checks t (fun output => output ∉ sources ∧
        (if s.output == "" then inferOutput sources format else .ok (.ofString s.output)) = .ok output) (s.Stops t)
      (checkOutput sources s.output format : Session (StateM FileTree) Path) := by
  unfold checkOutput
  cases hchosen : (if s.output == "" then inferOutput sources format else .ok (.ofString s.output)) with
  | error failure =>
    refine .throw (.leak ?_)
    split at hchosen
    next hgiven =>
      obtain ⟨source, rest, hfirst, hname, rfl⟩ := inferOutput_eq_error hchosen
      refine .nameless ?_ (by simpa using hgiven) (hsources.symm.trans hfirst) hname
      cases hversion : s.version with
      | true => rfl
      | false =>
        obtain ⟨p, hp, hprocessable, -⟩ := hnamed hversion
        rw [hfirst] at hp
        cases hp
        exact absurd hname (processable_name hprocessable)
    · cases hchosen
  | ok output =>
    dsimp only
    split
    · exact checks_abort _ .message
    next hnew => exact .pure ⟨by simpa using hnew, rfl⟩

/-- **Checked settings make a request or stop the session.** -/
theorem checks_checkSettings (s : Settings) (t : FileTree) :
    Checks t (s.Settles t) (s.Stops t) (checkSettings s : Session (StateM FileTree) Request) := by
  unfold checkSettings
  refine .bind (checks_checkSources s t) fun sources hsources => ?_
  refine .bind (checks_filled fun h => .leak (.format h)) fun requested hrequested => ?_
  refine .bind (checks_checkFormat sources requested) fun format hformat => ?_
  refine .bind (checks_checkOutput format hsources.1 hsources.2) fun output houtput => ?_
  refine .bind (checks_filled fun h => .leak (.number (.inl h))) fun tempBase htempBase => ?_
  refine checks_check .message fun hbase => checks_check .message fun hbinary => ?_
  refine .bind (checks_filled fun h => .leak (.number (.inr h))) fun cycles hcycles => .pure ?_
  refine
    { version := rfl, symbols := rfl, strict := rfl, comments := rfl, execute := rfl, friendly := rfl,
      tempBase := htempBase, cycles := hcycles, tempBase_nonneg := Int.not_lt.1 hbase,
      binary := fun hexecute => by simpa [hexecute] using hbinary, job := fun hversion => ?_ }
  obtain ⟨source, hsource, hprocessable, hpresent⟩ := hsources.2 hversion
  have hallowed := hformat source hsource
  rw [hsource] at houtput
  exact ⟨source, hsource,
    { sources := hsources.1.symm.trans hsource, processable := hprocessable, present := hpresent,
      allowed := ⟨requested, hrequested, hallowed⟩, chosen := houtput.2, differs := by simpa using houtput.1 }⟩

theorem checks_filledText {text : Except Text.TemplateFault String}
    (h : ∀ fault, text = .error fault → E (.escape (.template fault))) :
    Checks t (fun _ => True) E (filledText text : Session (StateM FileTree) String) := by
  cases text with
  | ok text => exact .pure trivial
  | error fault => exact .throw (h fault rfl)

/-- A text around the usage can be filled in if the usage can. -/
theorem usage_eq_error {program : String} {f : String → String} {fault : Text.TemplateFault}
    (h : (do return f (← usage program) : Except Text.TemplateFault String) = .error fault) :
    usage program = .error fault := by
  cases husage : usage program with
  | ok text =>
    rw [husage] at h
    cases h
  | error fault' =>
    rw [husage] at h
    cases h
    rfl

theorem readRequest_of_settings {program : String} {words : List String} (h : readSettings words = .ok s) :
    (readRequest program words : Session (StateM FileTree) Request) = checkSettings s := by
  simp only [readRequest, readWords, h, pure_bind]

theorem checks_readWords (i : Invocation) :
    Checks t (fun s => readSettings i.words = .ok s) (i.Stops t)
      (readWords (programName none i.startedAs) i.words : Session (StateM FileTree) Settings) := by
  unfold readWords
  split
  next s hs => exact .pure hs
  next hhelp =>
    refine .bind (checks_filledText fun fault hfault => .nameless hhelp ?_) fun text _ => ?_
    · exact usage_eq_error hfault
    · exact .display_throw _ (.help hhelp)
  next refusal hrefused =>
    refine .bind (checks_filledText fun fault hfault => .nameless hrefused ?_) fun text _ => ?_
    · exact usage_eq_error (f := fun text => text ++ _ ++ _ ++ _ ++ _) hfault
    · exact .display_throw _ (.refused hrefused)

/-- **A command line makes a request or stops the session.** -/
theorem checks_readRequest (i : Invocation) (t : FileTree) :
    Checks t (fun r => ∃ s, readSettings i.words = .ok s ∧ s.Settles t r) (i.Stops t)
      (readRequest (programName none i.startedAs) i.words : Session (StateM FileTree) Request) := by
  refine .bind (checks_readWords i) fun s hs => ?_
  exact (checks_checkSettings s t).imp (fun r hr => ⟨s, hs, hr⟩) fun stop hstop => .checked hs hstop

end

/-! ## Settings that make a request -/

section

variable {s : Settings} {t : FileTree} {source output : Path} {format : Format} {tempBase cycles : Int}

theorem onTree_checkSources (hversion : s.version = false) (hjob : s.Job t source format output) (c : Console) :
    onTree (checkSources s : Session (StateM FileTree) (List Path)) c t = ((.ok [source], c), t) := by
  have hsuffix : (source.suffix != assemblySuffix && source.suffix != bytecodeSuffix) = false := by
    rcases hjob.processable with h | h <;> simp [h]
  have hpresent : (Host.present source : StateM FileTree _).run t = (t.present source, t) := rfl
  simp only [checkSources, hversion, hjob.sources, hsuffix, Bool.false_eq_true, if_false]
  rw [onTree_bind, onHostOr, onTree_bind, onTree_onHost, hpresent, hjob.present]
  rfl

/-- Nothing else is needed for a request. -/
theorem onTree_checkSettings (hversion : s.version = false) (hjob : s.Job t source format output)
    (htempBase : s.tempBase = .value tempBase) (hbase : 0 ≤ tempBase)
    (hbinary : s.execute = true → format = .hack) (hcycles : s.cycles = .value cycles) (c : Console) :
    onTree (checkSettings s : Session (StateM FileTree) Request) c t =
      ((.ok
        { sources := [source], output, format, tempBase, cycles, version := false, verbose := s.verbose,
          symbols := s.symbols, strict := s.strict, comments := s.comments, execute := s.execute,
          friendly := s.friendly }, c), t) := by
  obtain ⟨requested, hrequested, hformat⟩ := hjob.allowed
  have hcheckFormat : checkFormat [source] requested = (pure format : Session (StateM FileTree) Format) := by
    simp only [checkFormat, hformat]
  have hcheckOutput : checkOutput [source] s.output format = (pure output : Session (StateM FileTree) Path) := by
    have hnew : ¬ ([source].contains output = true) := by simp [hjob.differs]
    rw [checkOutput, hjob.chosen]
    dsimp only
    rw [if_neg hnew]
  have hexecute : (s.execute && format != .hack) = false := by
    cases hx : s.execute with
    | false => rfl
    | true => simp [hbinary hx]
  rw [checkSettings, onTree_bind, onTree_checkSources hversion hjob]
  dsimp only
  rw [hrequested, filled, pure_bind, hcheckFormat, pure_bind, hcheckOutput, pure_bind, htempBase, filled, pure_bind,
    if_neg (Int.not_lt.2 hbase), hexecute, if_neg Bool.false_ne_true, hcycles, filled, pure_bind, hversion]
  rfl

end

end HackToolchain.CommandLine
