import HackToolchain.Proofs.SessionCourse
import Mathlib
/-!
What a session does to its source. Whatever course it takes, it changes no file but the one that its
output leads to. An output that is inferred leads elsewhere than the source, and one that is given has
another path; yet it may lead to the same file.
-/

namespace HackToolchain.CommandLine

open Interaction

theorem name_ne_up {p : Path} (h : Processable p) : p.name ≠ ".." := by
  intro hname
  rw [Processable, Path.suffix, hname] at h
  exact absurd h (by decide +kernel)

/-- A path that is inferred ends with a name that is neither that of the source nor `..`. -/
theorem inferOutput_name {source output : Path} {format : Format} (hsource : Processable source)
    (h : inferOutput [source] format = .ok output) :
    ∃ name, output.names.getLast? = some name ∧ name ≠ source.name ∧ name ≠ ".." := by
  let suffix := if source.suffix == format.suffix then source.suffix ++ format.suffix else format.suffix
  have hsuffix : 2 < suffix.length ∧ suffix ≠ source.suffix := by
    simp only [suffix]
    rcases hsource with hs | hs <;> cases format <;> rw [hs] <;> decide
  obtain ⟨hlong, hne⟩ := hsuffix
  have hwith : source.withSuffix? suffix = some output := by
    unfold inferOutput at h
    dsimp only at h
    split at h
    · next path hpath =>
      cases h
      exact hpath
    · cases h
  rw [Path.withSuffix?] at hwith
  split at hwith
  · cases hwith
  cases hwith
  refine ⟨source.stem ++ suffix, List.getLast?_concat, ?_, ?_⟩
  · intro hname
    rw [Path.name_eq_append] at hname
    exact hne ((String.append_right_inj _).1 hname)
  · intro hname
    have hlength := congrArg String.length hname
    rw [String.length_append] at hlength
    have : "..".length = 2 := rfl
    omega

/-- An output that leads to the file of the source was given, and spelled otherwise. -/
theorem Settings.Job.eq_given {s : Settings} {source : String} {path output : Path} {format : Format} {t u : FileTree}
    {place : Place} (h : s.Job t path format output) (hmem : source ∈ s.sources)
    (hsource : t.resolve (.ofString source) = .ok place) (houtput : u.resolve output = .ok place) :
    s.output ≠ "" ∧ Path.ofString s.output ≠ Path.ofString source ∧ output = Path.ofString s.output := by
  have hpath : Path.ofString source = path := by
    have := List.mem_map_of_mem (f := Path.ofString) hmem
    rw [h.sources] at this
    exact List.mem_singleton.1 this
  rw [hpath] at hsource ⊢
  have hchosen := h.chosen
  by_cases hgiven : s.output = ""
  · rw [if_pos (by simpa using hgiven)] at hchosen
    obtain ⟨name, hlast, hname, hup⟩ := inferOutput_name h.processable hchosen
    have hsuffix : path.suffix ≠ "" := by rcases h.processable with hs | hs <;> rw [hs] <;> decide
    -- Both places would have to end with the same name.
    have hhead := FileTree.head?_resolve (Path.getLast?_names hsuffix) (name_ne_up h.processable) hsource
    rw [FileTree.head?_resolve hlast hup houtput, Option.some.injEq] at hhead
    exact absurd hhead hname
  · rw [if_neg (by simpa using hgiven), Except.ok.injEq] at hchosen
    exact ⟨hgiven, hchosen ▸ h.differs, hchosen.symm⟩

/-- A goal changes no file but the one that the output leads to. -/
theorem Request.Course.keeps {r : Request} {source : Path} {t u : FileTree} {result : Except Failure Unit}
    {shown : List String} {place : Place} {content : ByteArray} (h : r.Course source t result shown u)
    (hfile : t.node? place = some (.file content)) :
    u.node? place = some (.file content) ∨ u.resolve r.output = .ok place := by
  cases h with
  | unread | unmade => exact .inl hfile
  | unwritten _ _ hwrite => exact .inl (((FileTree.moreDirectories_of_write hwrite).files place content).2 hfile)
  | written _ _ hwrite =>
    obtain ⟨q, hq, -, hothers⟩ := FileTree.file_of_write hwrite
    by_cases hplace : place = q
    · exact .inr (hplace ▸ hq)
    · exact .inl ((hothers place hplace content).2 hfile)

/-- Only a session with a job changes the tree. -/
theorem Invocation.Course.tree_cases {i : Invocation} {t u : FileTree} {stop : Stop} {out : String}
    (h : i.Course t stop u out) :
    u = t ∨ ∃ (s : Settings) (r : Request) (source : Path) (result : Except Failure Unit) (shown : List String),
      readSettings i.words = .ok s ∧ s.Job t source r.format r.output ∧ r.Course source t result shown u := by
  cases h with
  | stopped | version => exact .inl rfl
  | goal hs _ _ _ hjob hcourse => exact .inr ⟨_, _, _, _, _, hs, hjob, hcourse⟩

/-- **A source is overwritten only through another spelling of its path.** Whatever the command line
and the tree, a session leaves the file that the source denotes as it was, unless an output was
given whose path is not that of the source and yet leads to the same file. A command line that
cannot be read changes nothing. -/
theorem session_keeps_source (i : Invocation) (terminal : Bool) (t : FileTree) :
    let final := (((session i).run terminal : StateM FileTree _).run t).2
    (∀ halt, readSettings i.words = .error halt → final = t) ∧
    ∀ s, readSettings i.words = .ok s → ∀ source ∈ s.sources, ∀ place content,
      t.resolve (.ofString source) = .ok place → t.node? place = some (.file content) →
      final.node? place = some (.file content) ∨
        s.output ≠ "" ∧ Path.ofString s.output ≠ Path.ofString source ∧
          final.resolve (.ofString s.output) = .ok place := by
  intro final
  obtain ⟨stop, -, hcourse⟩ := course_session i terminal t
  rcases hcourse.tree_cases with hsame | ⟨s, r, _, _, _, hs, hjob, hgoal⟩
  · rw [show final = t from hsame]
    exact ⟨fun _ _ => rfl, fun _ _ _ _ _ _ _ hfile => .inl hfile⟩
  · refine ⟨fun halt hhalt => ?_, fun s' hs' source hmem place content hplace hfile => ?_⟩
    · rw [hs] at hhalt
      cases hhalt
    · rw [hs, Except.ok.injEq] at hs'
      subst hs'
      refine (hgoal.keeps hfile).imp_right fun hlead => ?_
      obtain ⟨hgiven, hother, houtput⟩ := hjob.eq_given hmem hplace hlead
      exact ⟨hgiven, hother, houtput ▸ hlead⟩

/-- A source reached by a detour, and no output given: its translation goes elsewhere. -/
theorem session_keeps_source_inferred :
    let t : FileTree := { nodes := [(["Prog.vm"], .file "push constant 7\n".toUTF8), (["sub"], .directory)] }
    let i : Invocation := { startedAs := "hackforge", words := ["./sub/../Prog.vm"], platform := "", runtime := "" }
    (((session i).run false : StateM FileTree _).run t).2.node? ["Prog.vm"] =
      some (.file "push constant 7\n".toUTF8) := by
  intro t i
  have hsettings : readSettings i.words = .ok { sources := ["./sub/../Prog.vm"] } := by decide +kernel
  have hplace : t.resolve (.ofString "./sub/../Prog.vm") = .ok ["Prog.vm"] := by cbv
  have hspec := (session_keeps_source i false t).2 _ hsettings _ (List.mem_singleton_self _) ["Prog.vm"] _ hplace rfl
  exact hspec.resolve_right fun h => h.1 rfl

/-- The guard compares paths, so a detour through a new directory gets past it: the source is
replaced by its translation, and the session ends as if all were well. -/
theorem session_overwrites_source :
    let t : FileTree := { nodes := [(["Prog.vm"], .file "push constant 7\n".toUTF8)] }
    let i : Invocation :=
      { startedAs := "hackforge", words := ["Prog.vm", "-o", "sub/../Prog.vm"], platform := "", runtime := "" }
    let final := ((session i).run false : StateM FileTree _).run t
    readSettings i.words = .ok { sources := ["Prog.vm"], output := "sub/../Prog.vm" } ∧
      t.resolve (.ofString "Prog.vm") = .ok ["Prog.vm"] ∧ final.1.1 = .error (.exit 0) ∧
      final.2.node? ["Prog.vm"] = some (.file "@7\nD=A\n@SP\nA=M\nM=D\n@SP\nM=M+1\n".toUTF8) := by
  intro t i final
  let u : FileTree :=
    { nodes := [(["Prog.vm"], .file "@7\nD=A\n@SP\nA=M\nM=D\n@SP\nM=M+1\n".toUTF8), (["sub"], .directory)] }
  let r : Request :=
    { sources := [.ofString "Prog.vm"], output := .ofString "sub/../Prog.vm", format := .asm, version := false,
      verbose := false, symbols := false, strict := false, comments := false, tempBase := 4, execute := false,
      cycles := 1000000, friendly := true }
  have hsettings : readSettings i.words = .ok { sources := ["Prog.vm"], output := "sub/../Prog.vm" } := by
    decide +kernel
  have hjob : Settings.Job { sources := ["Prog.vm"], output := "sub/../Prog.vm" } t (.ofString "Prog.vm") .asm
      (.ofString "sub/../Prog.vm") :=
    { sources := rfl, processable := .inr (by decide +kernel), present := by cbv
      allowed := ⟨none, rfl, by decide +kernel⟩, chosen := rfl, differs := by decide +kernel }
  have hrequest : ∀ c, onTree (readRequest (programName none i.startedAs) i.words) c t = ((.ok r, c), t) := by
    intro c
    rw [readRequest_of_settings hsettings]
    exact onTree_checkSettings rfl hjob rfl (by decide) (fun h => by cases h) rfl c
  have hbuild : (Build.translateFile (.ofString "Prog.vm") r.output r.translatorOptions : StateM FileTree _).run t =
      (⟨.ok (), []⟩, u) := by
    rw [Build.translateFile_run]
    cbv
  have hyields : Yields (perform i r) t (.ok ()) [] u := by
    have hreport := yields_report r (Build.translateFile (.ofString "Prog.vm") r.output r.translatorOptions) t
    rw [hbuild] at hreport
    exact (yields_tell r _ _ t).after (hreport.after (yields_tell r _ _ u))
  obtain ⟨c, -, hfinal⟩ := final_of_request (hrequest _) hyields
  refine ⟨hsettings, by cbv, ?_, ?_⟩
  · rw [show final = _ from hfinal]
    rfl
  · rw [show final = _ from hfinal]
    rfl

end HackToolchain.CommandLine
