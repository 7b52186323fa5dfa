import HackToolchain.Proofs.GoalCourse
import Mathlib
/-!
The course of a session. It stops before it has a request, or it shows the version, or it takes one
of the courses of its goal and ends as that demands. A session that does not succeed leaves every
file as it was, unless it was to execute an output that it may write but not read, and makes directories
only if nothing but the output was in the way. A session that succeeds has written what its source is
made into, to one file, and shown what was asked for.
-/

namespace HackToolchain

/-- The same files, with the same content. -/
def FileTree.SameFiles (t u : FileTree) : Prop :=
  ∀ place content, u.node? place = some (.file content) ↔ t.node? place = some (.file content)

/-- The failure is a report about the source, or says that it is no text. -/
def Failure.AboutSource (failure : Failure) : Prop :=
  (∃ diagnostic, failure = .diagnosed diagnostic) ∨ ∃ offset, failure = .undecodable offset

theorem Failure.not_aboutSource_of_write {output : Path} {content : ByteArray} {t u : FileTree} {failure : Failure}
    (h : FileTree.write output content t = .error failure u) : ¬ failure.AboutSource := by
  intro habout
  rcases FileTree.failsWith_write output content t _ u h with ⟨fault, rfl⟩ | ⟨rfl, -⟩
  · rcases habout with ⟨_, h⟩ | ⟨_, h⟩ <;> cases h
  · rcases habout with ⟨_, h⟩ | ⟨_, h⟩ <;> cases h

namespace Build

variable {α : Type}

/-- A build that fails leaves every file as it was. The whole tree is as it was too, unless the
source could be read and made into something and only the output could not be written. -/
def FailsCleanly (make : List Line → Outcome (List String × α)) (source output : Path) (t : FileTree)
    (run : Outcome α × FileTree) : Prop :=
  ∀ failure, run.1.result = .error failure → t.SameFiles run.2 ∧ (failure.AboutSource → run.2 = t) ∧
    (run.2 = t ∨ ∃ lines written a, (t.read source).bind (sourceLines source) = .ok lines ∧
      (make lines).result = .ok (written, a) ∧
      FileTree.write output (Text.unlines written).toUTF8 t = .error failure run.2)

theorem failsCleanly_delivered (make : List Line → Outcome (List String × α)) (source output : Path) (t : FileTree) :
    FailsCleanly make source output t (delivered output (ofSource make source t) t) := by
  intro failure hfailure
  have hcourse := course_delivered make source output t
  rw [hfailure] at hcourse
  generalize (delivered output (ofSource make source t) t).2 = u at hcourse ⊢
  cases hcourse with
  | unread | unmade => exact ⟨fun _ _ => .rfl, fun _ => rfl, .inl rfl⟩
  | unwritten hread hmade hwrite =>
    refine ⟨(FileTree.moreDirectories_of_write hwrite).files, fun habout => ?_, .inr ⟨_, _, _, hread, hmade, hwrite⟩⟩
    exact absurd habout (Failure.not_aboutSource_of_write hwrite)

theorem lines_of_read {source : Path} {t : FileTree} {lines : List Line}
    (h : (t.read source).bind (sourceLines source) = .ok lines) :
    ∃ content cs, t.read source = .ok content ∧ Text.decodeUtf8 content = .ok cs ∧
      lines = meaningfulLines (some source) (Text.lines cs) := by
  cases hread : t.read source with
  | error failure =>
    rw [hread] at h
    cases h
  | ok content =>
    rw [hread, Except.bind, sourceLines] at h
    split at h
    next cs hcs =>
      cases h
      exact ⟨content, cs, rfl, hcs, rfl⟩
    · cases h

end Build

namespace CommandLine

open Interaction

/-- How the session ends for what became of the goal. -/
def Request.stop (r : Request) : Except Failure Unit → Stop
  | .ok _ => .exit 0
  | .error (.diagnosed diagnostic) => if r.friendly then .exit 1 else .escape (.diagnosed diagnostic)
  | .error (.undecodable _) | .error (.inaccessible _) => .exit 1
  | .error failure => .escape failure

section

variable {i : Invocation} {r : Request} {t u : FileTree} {result : Except Failure Unit} {shown : List String}

theorem yields_abort (text : String) (t : FileTree) :
    Yields (Session.abort text : Session (StateM FileTree) Unit) t (.error (.exit 1)) [] t :=
  (Yields.message _ _ _ t).after (.throw _ t)

theorem yields_conclude (r : Request) (failure : Failure) (t : FileTree) :
    Yields (conclude r.friendly (.failed failure) : Session (StateM FileTree) Unit) t (.error (r.stop (.error failure)))
      [] t := by
  cases failure with
  | diagnosed diagnostic =>
    rw [conclude, Request.stop]
    split
    · exact yields_abort _ t
    · exact .throw _ t
  | undecodable | inaccessible => exact yields_abort _ t
  | breach | numeral | missingKey | noFixedAddress | outOfRange | numberLeftBlank | template | namelessPath | nulInPath
    | foreign => exact .throw _ t

/-- What became of the goal ends the session. -/
theorem yields_fulfil (h : Yields (perform i r) t result shown u) :
    Yields (fulfil i r : Session (StateM FileTree) Unit) t (.error (r.stop result)) shown u := by
  refine .after (.onHost rfl) ?_
  have hrun : Yields (ExceptT.lift (ExceptT.run (perform i r)) : Session (StateM FileTree) (Except Failure Unit)) t
      (.ok result) shown u := by
    intro c
    obtain ⟨c', hout, hr⟩ := h c
    exact ⟨c', hout, by rw [onTree_run, hr]⟩
  rw [← List.append_nil shown]
  refine hrun.bind ?_
  cases result with
  | error failure => exact yields_conclude r failure u
  | ok _ => exact .after (.onHost rfl) ((Yields.message _ _ _ u).after (.throw _ u))

theorem yields_perform_version (h : r.version = true) :
    Yields (perform i r : Goal (StateM FileTree) Unit) t (.ok ()) (versionLines i r) t := by
  rw [perform, if_pos h]
  exact .printLines _ t

end

/-- What can become of a session: how it ends, the tree after it and the text on the output. -/
inductive Invocation.Course (i : Invocation) (t : FileTree) : Stop → FileTree → String → Prop
  | stopped {stop : Stop} {out : String} : i.Stops t stop → Course i t stop t out
  | version {s : Settings} {r : Request} : readSettings i.words = .ok s → s.version = true →
    Course i t (.exit 0) t (Text.unlines (versionLines i r))
  | goal {s : Settings} {r : Request} {source : Path} {result : Except Failure Unit} {shown : List String}
    {u : FileTree} : readSettings i.words = .ok s → s.version = false → s.Settles t r → r.sources = [source] →
    s.Job t source r.format r.output → r.Course source t result shown u →
    Course i t (r.stop result) u (Text.unlines shown)

theorem out_adviseInstallation (program : String) (c : Console) : (adviseInstallation program c).out = c.out := by
  unfold adviseInstallation
  split
  · exact c.out_message _ _ _
  · rfl

/-- The phases of a session: it ends with its request, or as its goal demands. -/
theorem onTree_session (i : Invocation) (c : Console) (t : FileTree) :
    onTree (session i : Session (StateM FileTree) Unit) c t =
      onTree (readRequest (programName none i.startedAs) i.words >>= fulfil i)
        (adviseInstallation (programName none i.startedAs) c) t := by
  rw [session, onTree_bind, onTree_display]

/-- A session that has a request ends as what becomes of the goal demands. -/
theorem final_of_request {i : Invocation} {r : Request} {terminal : Bool} {t u : FileTree}
    {result : Except Failure Unit} {shown : List String}
    (hrequest : onTree (readRequest (programName none i.startedAs) i.words)
        (adviseInstallation (programName none i.startedAs) { terminal }) t =
      ((.ok r, adviseInstallation (programName none i.startedAs) { terminal }), t))
    (hyields : Yields (perform i r) t result shown u) :
    ∃ c, c.out = Text.unlines shown ∧
      ((session i).run terminal : StateM FileTree _).run t = ((.error (r.stop result), c), u) := by
  have hout : (adviseInstallation (programName none i.startedAs) { terminal }).out = "" := out_adviseInstallation _ _
  obtain ⟨c, hc, hrun⟩ := yields_fulfil hyields (adviseInstallation (programName none i.startedAs) { terminal })
  rw [hout, String.empty_append] at hc
  refine ⟨c, hc, ?_⟩
  have hfinal : ((session i).run terminal : StateM FileTree _).run t = onTree (session i) { terminal } t := rfl
  rw [hfinal, onTree_session, onTree_bind, hrequest]
  exact hrun

/-- A session with a job takes one of the courses of the request that its settings make. -/
theorem final_of_job {i : Invocation} {s : Settings} {t : FileTree} {source output : Path} {format : Format}
    {tempBase cycles : Int} (hsettings : readSettings i.words = .ok s) (hversion : s.version = false)
    (hjob : s.Job t source format output) (htempBase : s.tempBase = .value tempBase) (hbase : 0 ≤ tempBase)
    (hbinary : s.execute = true → format = .hack) (hcycles : s.cycles = .value cycles) (terminal : Bool) :
    let r : Request :=
      { sources := [source], output, format, tempBase, cycles, version := false, verbose := s.verbose,
        symbols := s.symbols, strict := s.strict, comments := s.comments, execute := s.execute,
        friendly := s.friendly }
    ∃ result shown u c, r.Course source t result shown u ∧
      ((session i).run terminal : StateM FileTree _).run t = ((.error (r.stop result), c), u) := by
  intro r
  obtain ⟨result, shown, u, hcourse, hyields⟩ := takesCourse_perform (r := r) (t := t) i rfl rfl
  have hrequest : ∀ c, onTree (readRequest (programName none i.startedAs) i.words) c t = ((.ok r, c), t) := by
    intro c
    rw [readRequest_of_settings hsettings]
    exact onTree_checkSettings hversion hjob htempBase hbase hbinary hcycles c
  obtain ⟨c, -, hfinal⟩ := final_of_request (hrequest _) hyields
  exact ⟨result, shown, u, c, hcourse, hfinal⟩

/-- **Every session takes one of these courses.** -/
theorem course_session (i : Invocation) (terminal : Bool) (t : FileTree) :
    let final := ((session i).run terminal : StateM FileTree _).run t
    ∃ stop, final.1.1 = .error stop ∧ i.Course t stop final.2 final.1.2.out := by
  intro final
  rcases checks_readRequest i t (adviseInstallation (programName none i.startedAs) { terminal }) with
    ⟨r, ⟨s, hs, hsettles⟩, hrequest⟩ | ⟨stop, c, hstop, hrequest⟩
  · cases hversion : s.version with
    | true =>
      obtain ⟨c, hout, hfinal⟩ := final_of_request hrequest
        (yields_perform_version (hsettles.version.trans hversion))
      refine ⟨.exit 0, ?_⟩
      rw [show final = _ from hfinal, hout]
      exact ⟨rfl, .version hs hversion⟩
    | false =>
      obtain ⟨source, hsource, hjob⟩ := hsettles.job hversion
      obtain ⟨result, shown, u, hcourse, hyields⟩ := takesCourse_perform i (hsettles.version.trans hversion) hsource
      obtain ⟨c, hout, hfinal⟩ := final_of_request hrequest hyields
      refine ⟨r.stop result, ?_⟩
      rw [show final = _ from hfinal, hout]
      exact ⟨rfl, .goal hs hversion hsettles hsource hjob hcourse⟩
  · have hfinal : final = onTree (session i) { terminal } t := rfl
    rw [onTree_session, onTree_bind, hrequest] at hfinal
    rw [hfinal]
    exact ⟨stop, rfl, .stopped hstop⟩

theorem Request.stop_error_ne (r : Request) (failure : Failure) : r.stop (.error failure) ≠ .exit 0 := by
  intro h
  cases failure with
  | diagnosed diagnostic =>
    rw [Request.stop] at h
    split at h <;> cases h
  | undecodable | inaccessible | breach | numeral | missingKey | noFixedAddress | outOfRange | numberLeftBlank
    | template | namelessPath | nulInPath | foreign => cases h

/-- Before there is a request, only the explanation ends a session with success. -/
theorem Invocation.Stops.help_of_exit {i : Invocation} {t : FileTree} (h : i.Stops t (.exit 0)) :
    readSettings i.words = .error .help := by
  cases h with
  | help hhelp => exact hhelp
  | checked _ hstop => cases hstop

/-! ## Sessions that fail -/

/-- The output may not be read, and is the one file in which the trees may differ. -/
def Request.WritesUnread (r : Request) (t u : FileTree) : Prop :=
  ∃ place content, u.resolve r.output = .ok place ∧ (t.rights place).read = false ∧
    u.node? place = some (.file content) ∧
    ∀ q, q ≠ place → ∀ old, u.node? q = some (.file old) ↔ t.node? q = some (.file old)

theorem Request.writesUnread_of_write {r : Request} {t u : FileTree} {content : ByteArray}
    (hwrite : FileTree.write r.output content t = .ok () u) (hdenied : ¬ u.MayRead r.output) : r.WritesUnread t u := by
  obtain ⟨place, hplace, hfile, hothers⟩ := FileTree.file_of_write hwrite
  refine ⟨place, content, hplace, ?_, hfile, hothers⟩
  rw [← FileTree.rights_of_write hwrite]
  exact FileTree.read_eq_false_of_not_mayRead hplace hdenied

/-- What fails leaves the files as they were, and the tree too if the source is to blame, unless it was to
execute an output that may not be read. -/
theorem Request.Course.files_of_error {r : Request} {source : Path} {t u : FileTree} {failure : Failure}
    {shown : List String} (h : r.Course source t (.error failure) shown u) :
    t.SameFiles u ∧ (failure.AboutSource → u = t) ∨
      r.execute = true ∧ (∃ fault, failure = .inaccessible fault) ∧ r.WritesUnread t u := by
  cases h with
  | unread | unmade => exact .inl ⟨fun _ _ => .rfl, fun _ => rfl⟩
  | unwritten _ _ hwrite =>
    refine .inl ⟨(FileTree.moreDirectories_of_write hwrite).files, fun habout => ?_⟩
    exact absurd habout (Failure.not_aboutSource_of_write hwrite)
  | written _ _ hwrite hshows =>
    cases hshows with
    | denied hexecute hdenied => exact .inr ⟨hexecute, ⟨_, rfl⟩, Request.writesUnread_of_write hwrite hdenied⟩

theorem Request.Course.eq_of_aboutSource {r : Request} {source : Path} {t u : FileTree} {failure : Failure}
    {shown : List String} (h : r.Course source t (.error failure) shown u) (habout : failure.AboutSource) : u = t := by
  rcases h.files_of_error with ⟨-, hsame⟩ | ⟨-, ⟨fault, rfl⟩, -⟩
  · exact hsame habout
  · rcases habout with ⟨_, h⟩ | ⟨_, h⟩ <;> cases h

theorem Invocation.Course.files_of_failure {i : Invocation} {t u : FileTree} {stop : Stop} {out : String}
    (h : i.Course t stop u out) (hstop : stop ≠ .exit 0) :
    t.SameFiles u ∨ stop = .exit 1 ∧ ∃ s r, readSettings i.words = .ok s ∧ s.execute = true ∧ s.Settles t r ∧
      r.WritesUnread t u := by
  cases h with
  | stopped | version => exact .inl fun _ _ => .rfl
  | @goal s r _ result _ _ hs _ hsettles _ _ hcourse =>
    cases result with
    | ok _ => exact absurd rfl hstop
    | error failure =>
      rcases hcourse.files_of_error with ⟨hsame, -⟩ | ⟨hexecute, ⟨fault, rfl⟩, hunread⟩
      · exact .inl hsame
      · exact .inr ⟨rfl, s, r, hs, hsettles.execute.symm.trans hexecute, hsettles, hunread⟩

theorem fulfil_of_aboutSource {i : Invocation} {s : Settings} {r : Request} {c : Console} {t : FileTree}
    {failure : Failure} (hsettles : s.Settles t r) (hfailure : (onTree (perform i r) c t).1.1 = .error failure)
    (habout : failure.AboutSource) : (onTree (fulfil i r : Session (StateM FileTree) Unit) c t).2 = t := by
  cases hversion : s.version with
  | true =>
    obtain ⟨c', -, hrun⟩ := @yields_perform_version i r t (hsettles.version.trans hversion) c
    rw [hrun] at hfailure
    cases hfailure
  | false =>
    obtain ⟨source, hsource, -⟩ := hsettles.job hversion
    obtain ⟨result, shown, u, hcourse, hyields⟩ := takesCourse_perform i (hsettles.version.trans hversion) hsource
    obtain ⟨c', -, hrun⟩ := hyields c
    rw [hrun] at hfailure
    cases hfailure
    obtain ⟨c', -, hrun⟩ := yields_fulfil hyields c
    rw [hrun]
    exact hcourse.eq_of_aboutSource habout

/-- **A session that fails leaves the files as they were, unless it cannot read what it wrote.** Whatever
the command line and the tree, no file is made, changed or lost unless the session ends with exit code
zero, or is told to execute an output that may not be read: then it ends with exit code one, and that
one file has been written. Not even a directory is made if the command line is refused, if the source is
no text, or if there is something to report about it. The builds by themselves, which read nothing back,
leave all files as they were when they fail. -/
theorem failed_session_keeps_files (i : Invocation) (terminal : Bool) (t : FileTree) :
    let program := programName none i.startedAs
    let console := adviseInstallation program { terminal }
    let request := onTree (readRequest program i.words : Session (StateM FileTree) Request) console t
    let final := ((session i).run terminal : StateM FileTree _).run t
    (final.1.1 ≠ .error (.exit 0) → t.SameFiles final.2 ∨
      final.1.1 = .error (.exit 1) ∧ ∃ s r, readSettings i.words = .ok s ∧ s.execute = true ∧ s.Settles t r ∧
        r.WritesUnread t final.2) ∧
    (∀ stop, request.1.1 = .error stop → final.2 = t) ∧
    (∀ r failure, request.1.1 = .ok r → (onTree (perform i r) console t).1.1 = .error failure →
      failure.AboutSource → final.2 = t) ∧
    ∀ source output options strict,
      Build.FailsCleanly (Build.assembled strict) source output t
        ((Build.assembleFile source output strict : StateM FileTree _).run t) ∧
      Build.FailsCleanly (fun lines =>
          { Build.translated source options lines with
            result := (Build.translated source options lines).result.map (·, ()) })
        source output t ((Build.translateFile source output options : StateM FileTree _).run t) ∧
      Build.FailsCleanly (Build.built source options strict) source output t
        ((Build.buildFile source output options strict : StateM FileTree _).run t) := by
  intro program console request final
  have hfinal : final = onTree (readRequest program i.words >>= fulfil i) console t := onTree_session i { terminal } t
  rw [onTree_bind] at hfinal
  refine ⟨fun hexit => ?_, ?_, ?_, fun source output options strict => ?_⟩
  · obtain ⟨stop, hstop, hcourse⟩ := course_session i terminal t
    have hfailed : stop ≠ .exit 0 := by
      rintro rfl
      exact hexit hstop
    rw [show final.1.1 = .error stop from hstop, Except.error.injEq]
    exact hcourse.files_of_failure hfailed
  · intro stop hstop
    rcases checks_readRequest i t console with ⟨r, -, hrequest⟩ | ⟨_, c, -, hrequest⟩
    · rw [show request = _ from hrequest] at hstop
      cases hstop
    · rw [hfinal, hrequest]
  · intro r failure hr hfailure habout
    rcases checks_readRequest i t console with ⟨r', ⟨s, hs, hsettles⟩, hrequest⟩ | ⟨_, c, -, hrequest⟩
    · rw [show request = _ from hrequest] at hr
      cases hr
      rw [hfinal, hrequest]
      exact fulfil_of_aboutSource hsettles hfailure habout
    · rw [show request = _ from hrequest] at hr
      cases hr
  · rw [Build.assembleFile_run, Build.translateFile_run, Build.buildFile_run]
    exact ⟨Build.failsCleanly_delivered _ _ _ t, Build.failsCleanly_delivered _ _ _ t,
      Build.failsCleanly_delivered _ _ _ t⟩

/-- A source that is no text, with an output in a directory that does not exist: it is not made. -/
theorem failed_session_keeps_files_undecodable :
    let t : FileTree := { nodes := [(["Prog.asm"], .file ⟨#[0x40, 0xff]⟩)] }
    let i : Invocation :=
      { startedAs := "hackforge", words := ["Prog.asm", "-o", "sub/Prog.hack"], platform := "", runtime := "" }
    let final := ((session i).run false : StateM FileTree _).run t
    final.1.1 = .error (.exit 1) ∧ final.2 = t ∧ t.SameFiles final.2 ∧
      ((Build.assembleFile (.ofString "Prog.asm") (.ofString "sub/Prog.hack") false : StateM FileTree _).run t).2 = t := by
  intro t i final
  have hsettings : readSettings i.words = .ok { sources := ["Prog.asm"], output := "sub/Prog.hack" } := by
    decide +kernel
  have hjob : Settings.Job { sources := ["Prog.asm"], output := "sub/Prog.hack" } t (.ofString "Prog.asm") .hack
      (.ofString "sub/Prog.hack") :=
    { sources := rfl, processable := .inl (by decide +kernel), present := by cbv
      allowed := ⟨none, rfl, by decide +kernel⟩, chosen := rfl, differs := by decide +kernel }
  have hread : (t.read (.ofString "Prog.asm")).bind (Build.sourceLines (.ofString "Prog.asm")) =
      .error (.undecodable 1) := by cbv
  let r : Request :=
    { sources := [.ofString "Prog.asm"], output := .ofString "sub/Prog.hack", format := .hack, version := false,
      verbose := false, symbols := false, strict := false, comments := false, tempBase := 4, execute := false,
      cycles := 1000000, friendly := true }
  have hrequest : ∀ c, onTree (readRequest (programName none i.startedAs) i.words) c t = ((.ok r, c), t) := by
    intro c
    rw [readRequest_of_settings hsettings]
    exact onTree_checkSettings rfl hjob rfl (by decide) (fun _ => rfl) rfl c
  obtain ⟨result, shown, u, hcourse, hyields⟩ := takesCourse_perform (r := r) (t := t) i rfl rfl
  have hresult : result = .error (.undecodable 1) := by
    cases hcourse with
    | unread h =>
      rw [hread] at h
      cases h
      rfl
    | unmade h | unwritten h | written h =>
      rw [hread] at h
      cases h
  subst hresult
  obtain ⟨c, -, hfinal⟩ := final_of_request (hrequest _) hyields
  have hexit : final.1.1 = .error (.exit 1) := by rw [show final = _ from hfinal]; rfl
  have hspec := failed_session_keeps_files i false t
  have hfiles : t.SameFiles final.2 := by
    refine (hspec.1 (by rw [hexit]; simp)).resolve_right ?_
    rintro ⟨-, s, r, hs, hexecute, -⟩
    rw [hsettings] at hs
    cases hs
    cases hexecute
  refine ⟨hexit, ?_, hfiles, ?_⟩
  · refine hspec.2.2.1 r (.undecodable 1) (by rw [hrequest]) ?_ (.inr ⟨1, rfl⟩)
    obtain ⟨c, -, hrun⟩ := hyields (adviseInstallation (programName none i.startedAs) { terminal := false })
    rw [hrun]
  · refine ((hspec.2.2.2 _ _ {} false).1 (.undecodable 1) ?_).2.1 (.inr ⟨1, rfl⟩)
    rw [Build.assembleFile_run, Build.ofSource, hread]
    rfl

/-- What is read and not refused is written, or cannot be. -/
theorem Request.Course.written_cases {r : Request} {source : Path} {t u : FileTree} {result : Except Failure Unit}
    {shown : List String} {lines : List Line} (h : r.Course source t result shown u)
    (hread : (t.read source).bind (Build.sourceLines source) = .ok lines)
    (hmade : ∀ failure, ¬ r.Refuses source lines failure) :
    ∃ written whole, r.Makes source lines written whole ∧
      ((∃ failure, result = .error failure ∧
        FileTree.write r.output (Text.unlines written).toUTF8 t = .error failure u) ∨
      FileTree.write r.output (Text.unlines written).toUTF8 t = .ok () u ∧ r.Shows u whole result shown) := by
  cases h with
  | unread hfail =>
    rw [hread] at hfail
    cases hfail
  | unmade hlines hrefuses =>
    rw [hread] at hlines
    cases hlines
    exact absurd hrefuses (hmade _)
  | unwritten hlines hmakes hwrite =>
    rw [hread] at hlines
    cases hlines
    exact ⟨_, _, hmakes, .inl ⟨_, rfl, hwrite⟩⟩
  | written hlines hmakes hwrite hshows =>
    rw [hread] at hlines
    cases hlines
    exact ⟨_, _, hmakes, .inr ⟨hwrite, hshows⟩⟩

/-- An assembly source that can be read and assembled is written, or cannot be. -/
theorem Request.Course.assembled_cases {r : Request} {source : Path} {t u : FileTree} {result : Except Failure Unit}
    {shown : List String} {lines : List Line} {words : List Word} {a : Assembler}
    (h : r.Course source t result shown u) (hsuffix : source.suffix = assemblySuffix)
    (hread : (t.read source).bind (Build.sourceLines source) = .ok lines)
    (hwords : assembleLines r.strict lines = .ok words a) :
    (∃ failure, result = .error failure ∧
      FileTree.write r.output (Text.unlines (words.map bits)).toUTF8 t = .error failure u) ∨
    FileTree.write r.output (Text.unlines (words.map bits)).toUTF8 t = .ok () u ∧
      ∃ whole, r.Shows u whole result shown := by
  have hmade : ∀ failure, ¬ r.Refuses source lines failure := by
    intro failure hrefuses
    cases hrefuses with
    | assembling _ hfail =>
      rw [hwords] at hfail
      cases hfail
    | translating hother | building hother => exact hother hsuffix
  obtain ⟨written, whole, hmakes, hwritten⟩ := h.written_cases hread hmade
  cases hmakes with
  | assembled _ hwords' =>
    rw [hwords] at hwords'
    cases hwords'
    exact hwritten.imp_right fun h => ⟨h.1, _, h.2⟩
  | translated hother | built hother => exact absurd hsuffix hother

/-- What a session that fails can leave behind: an output that was to be executed and may be written but
not read, and the directory above an output with a NUL in its name. -/
theorem failed_session_leaves_traces :
    (let t : FileTree :=
        { nodes := [(["Add.asm"], .file "@1\n".toUTF8), (["Add.hack"], .file "old".toUTF8)]
          rights := fun place => { read := place != ["Add.hack"] } }
      let i : Invocation := { startedAs := "hackforge", words := ["Add.asm", "-e"], platform := "", runtime := "" }
      let final := ((session i).run false : StateM FileTree _).run t
      final.1.1 = .error (.exit 1) ∧ t.node? ["Add.hack"] = some (.file "old".toUTF8) ∧
        final.2.node? ["Add.hack"] = some (.file "0000000000000001\n".toUTF8)) ∧
    (let t : FileTree := { nodes := [(["Add.asm"], .file "@1\n".toUTF8)] }
      let i : Invocation :=
        { startedAs := "hackforge", words := ["Add.asm", "-o", "sub/a\u0000.hack"], platform := "", runtime := "" }
      let final := ((session i).run false : StateM FileTree _).run t
      final.1.1 = .error (.escape .nulInPath) ∧ t.node? ["sub"] = none ∧ final.2.node? ["sub"] = some .directory) := by
  let lines := meaningfulLines (some (.ofString "Add.asm")) (Text.lines "@1\n".toList)
  obtain ⟨a, hwords⟩ : ∃ a, assembleLines false lines = .ok [1] a := ⟨_, by rfl⟩
  refine ⟨?_, ?_⟩
  · intro t i final
    have hsettings : readSettings i.words = .ok { sources := ["Add.asm"], execute := true } := by decide +kernel
    have hjob : Settings.Job { sources := ["Add.asm"], execute := true } t (.ofString "Add.asm") .hack
        (.ofString "Add.hack") :=
      { sources := rfl, processable := .inl (by decide +kernel), present := by cbv
        allowed := ⟨none, rfl, by decide +kernel⟩, chosen := by decide +kernel, differs := by decide +kernel }
    have hread : (t.read (.ofString "Add.asm")).bind (Build.sourceLines (.ofString "Add.asm")) = .ok lines := by
      have hsource : t.read (.ofString "Add.asm") = .ok "@1\n".toUTF8 := by cbv
      rw [hsource, Except.bind, Build.sourceLines_toUTF8]
    have hwritten : ∀ content, FileTree.write (.ofString "Add.hack") content t =
        .ok () { t with nodes := [(["Add.asm"], .file "@1\n".toUTF8), (["Add.hack"], .file content)] } := by
      intro content
      cbv
    obtain ⟨result, shown, u, c, hcourse, hfinal⟩ :=
      final_of_job hsettings rfl hjob rfl (by decide) (fun _ => rfl) rfl false
    rcases hcourse.assembled_cases (by decide +kernel) hread hwords with ⟨failure, -, hfail⟩ | ⟨hwrite, whole, hshows⟩
    · exact absurd (hfail.symm.trans (hwritten _)) (by simp)
    cases (hwritten _).symm.trans hwrite
    rw [show final = _ from hfinal]
    cases hshows with
    | all hmay => exact absurd (hmay rfl rfl ["Add.hack"] (by cbv)) (by decide)
    | denied => exact ⟨rfl, rfl, rfl⟩
  · intro t i final
    have hsettings : readSettings i.words = .ok { sources := ["Add.asm"], output := "sub/a\u0000.hack" } := by
      decide +kernel
    have hjob : Settings.Job { sources := ["Add.asm"], output := "sub/a\u0000.hack" } t (.ofString "Add.asm") .hack
        (.ofString "sub/a\u0000.hack") :=
      { sources := rfl, processable := .inl (by decide +kernel), present := by cbv
        allowed := ⟨none, rfl, by decide +kernel⟩, chosen := rfl, differs := by decide +kernel }
    have hread : (t.read (.ofString "Add.asm")).bind (Build.sourceLines (.ofString "Add.asm")) = .ok lines := by
      have hsource : t.read (.ofString "Add.asm") = .ok "@1\n".toUTF8 := by cbv
      rw [hsource, Except.bind, Build.sourceLines_toUTF8]
    have hrefused : ∀ content, FileTree.write (.ofString "sub/a\u0000.hack") content t =
        .error .nulInPath { nodes := [(["Add.asm"], .file "@1\n".toUTF8), (["sub"], .directory)] } := by
      intro content
      cbv
    obtain ⟨result, shown, u, c, hcourse, hfinal⟩ :=
      final_of_job hsettings rfl hjob rfl (by decide) (fun _ => rfl) rfl false
    rcases hcourse.assembled_cases (by decide +kernel) hread hwords with ⟨failure, rfl, hfail⟩ | ⟨hwrite, -⟩
    · cases (hrefused _).symm.trans hfail
      rw [show final = _ from hfinal]
      exact ⟨rfl, rfl, rfl⟩
    · exact absurd (hwrite.symm.trans (hrefused _)) (by simp)

/-! ## Sessions that succeed -/

/-- A session that ends with success for another reason than the explanation or the version. -/
theorem Invocation.Course.written {i : Invocation} {t u : FileTree} {stop : Stop} {out : String}
    (h : i.Course t stop u out) (hstop : stop = .exit 0) (hhelp : readSettings i.words ≠ .error .help)
    (hversion : ∀ s, readSettings i.words = .ok s → s.version = false) :
    ∃ s r source lines written shown, readSettings i.words = .ok s ∧ s.Settles t r ∧
      s.Job t source r.format r.output ∧ (t.read source).bind (Build.sourceLines source) = .ok lines ∧
      r.Makes source lines written shown ∧ FileTree.write r.output (Text.unlines written).toUTF8 t = .ok () u ∧
      out = Text.unlines shown := by
  cases h with
  | stopped hstopped =>
    rw [hstop] at hstopped
    exact absurd hstopped.help_of_exit hhelp
  | version hs hasked =>
    rw [hversion _ hs] at hasked
    cases hasked
  | goal hs _ hsettles _ hjob hcourse =>
    cases hcourse with
    | unread | unmade | unwritten => exact absurd hstop (Request.stop_error_ne _ _)
    | written hread hmakes hwrite hshows =>
      cases hshows with
      | all => exact ⟨_, _, _, _, _, _, hs, hsettles, hjob, hread, hmakes, hwrite, rfl⟩
      | denied => exact absurd hstop (Request.stop_error_ne _ _)

end CommandLine

end HackToolchain
