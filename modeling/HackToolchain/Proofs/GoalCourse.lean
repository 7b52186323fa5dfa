import HackToolchain.Proofs.Execution
import HackToolchain.Proofs.MachineCode
import HackToolchain.Proofs.SettledRequest
import HackToolchain.Proofs.StagedBuild
import Mathlib
/-!
The course of a goal. A goal reads its source, makes the lines of the output from it and writes them;
the first of these that fails ends it. Once the output is written only one thing can fail: what is
executed is read from the file just written, and that file may be one that may not be read. Otherwise it
is the program that was assembled, and a program that was assembled fits into the instruction memory.
-/

namespace HackToolchain

theorem Text.unlines_append (ls ls' : List String) : unlines (ls ++ ls') = unlines ls ++ unlines ls' := by
  simp [unlines]

/-! ## Builds -/

namespace Build

variable {α : Type}

/-- What can become of a build, with the tree after it: the source cannot be read, nothing can be
made of it, or what was made cannot or can be written. -/
inductive Course (make : List Line → Outcome (List String × α)) (source output : Path) (t : FileTree) :
    Except Failure α → FileTree → Prop
  | unread {failure : Failure} : (t.read source).bind (sourceLines source) = .error failure →
    Course make source output t (.error failure) t
  | unmade {lines : List Line} {failure : Failure} : (t.read source).bind (sourceLines source) = .ok lines →
    (make lines).result = .error failure → Course make source output t (.error failure) t
  | unwritten {lines : List Line} {written : List String} {a : α} {failure : Failure} {u : FileTree} :
    (t.read source).bind (sourceLines source) = .ok lines → (make lines).result = .ok (written, a) →
    FileTree.write output (Text.unlines written).toUTF8 t = .error failure u →
    Course make source output t (.error failure) u
  | written {lines : List Line} {written : List String} {a : α} {u : FileTree} :
    (t.read source).bind (sourceLines source) = .ok lines → (make lines).result = .ok (written, a) →
    FileTree.write output (Text.unlines written).toUTF8 t = .ok () u → Course make source output t (.ok a) u

theorem course_delivered (make : List Line → Outcome (List String × α)) (source output : Path) (t : FileTree) :
    Course make source output t (delivered output (ofSource make source t) t).1.result
      (delivered output (ofSource make source t) t).2 := by
  rw [ofSource]
  cases hread : (t.read source).bind (sourceLines source) with
  | error failure =>
    dsimp only
    rw [delivered_of_error rfl]
    exact .unread hread
  | ok lines =>
    dsimp only
    cases hmade : (make lines).result with
    | error failure =>
      rw [delivered_of_error hmade]
      exact .unmade hread hmade
    | ok made =>
      cases hwrite : FileTree.write output (Text.unlines made.1).toUTF8 t with
      | ok _ u =>
        rw [delivered_of_write hmade hwrite]
        exact .written hread hmade hwrite
      | error failure u =>
        rw [delivered, hmade]
        dsimp only
        rw [hwrite]
        exact .unwritten hread hmade hwrite

variable {source : Path} {options : Translator.Options} {strict : Bool} {lines : List Line} {failure : Failure}

theorem assembled_eq_ok {written : List String} {symbols : SymbolTable}
    (h : (assembled strict lines).result = .ok (written, symbols)) :
    ∃ words s, assembleLines strict lines = .ok words s ∧ written = words.map bits ∧ symbols = s.symbols := by
  rw [assembled] at h
  split at h
  next words s hwords =>
    cases h
    exact ⟨words, s, hwords, rfl, rfl⟩
  · cases h

theorem assembled_eq_error (h : (assembled strict lines).result = .error failure) :
    ∃ s, assembleLines strict lines = .error failure s := by
  rw [assembled] at h
  split at h
  · cases h
  next s hfail =>
    cases h
    exact ⟨s, hfail⟩

theorem translated_eq_ok {code : List String} (h : (translated source options lines).result = .ok code) :
    ∃ tr, translateLines source.stem options lines = .ok code tr := by
  rw [translated] at h
  split at h
  next tr hcode =>
    cases h
    exact ⟨tr, hcode⟩
  · cases h

theorem translated_eq_error (h : (translated source options lines).result = .error failure) :
    ∃ tr, translateLines source.stem options lines = .error failure tr := by
  rw [translated] at h
  split at h
  · cases h
  next tr hfail =>
    cases h
    exact ⟨tr, hfail⟩

theorem built_eq_ok {made : List String × SymbolTable} (h : (built source options strict lines).result = .ok made) :
    ∃ code, (translated source options lines).result = .ok code ∧
      (assembled strict (code.map .raw)).result = .ok made := by
  rw [built] at h
  split at h
  · cases h
  next code hcode => exact ⟨code, hcode, h⟩

theorem built_eq_error (h : (built source options strict lines).result = .error failure) :
    (translated source options lines).result = .error failure ∨
      ∃ code, (translated source options lines).result = .ok code ∧
        (assembled strict (code.map .raw)).result = .error failure := by
  rw [built] at h
  split at h
  next hfail =>
    cases h
    exact .inl hfail
  next code hcode => exact .inr ⟨code, hcode, h⟩

end Build

/-! ## Programs that were written -/

/-- The word with the binary digits of a line. -/
def Word.ofLine (line : String) : Word :=
  .ofNat 16 (ofBinary line.toList)

theorem Word.ofLine_bits (w : Word) : ofLine (bits w) = w := by
  rw [ofLine, bits, String.toList_ofList, ofBinary_take w (Nat.le_refl 16)]
  simp

theorem unbroken_bits (w : Word) : Text.Unbroken (bits w).toList := by
  intro c hc
  rcases Word.mem_bits hc with rfl | rfl <;> decide

/-- A program that is read back from a file is the program that was written. -/
theorem romWords_meaningfulLines (path : Path) (words : List Word) :
    romWords (meaningfulLines (some path) (words.map bits)) = .ok words := by
  have hfrom : ∀ n, romWords (((words.map bits).zipIdx n).filterMap fun entry =>
      if stripComment entry.1 == "" then none
      else some (.located (stripComment entry.1) (some (.ofRow (some path) entry.2)))) = .ok words := by
    induction words with
    | nil => exact fun _ => rfl
    | cons w words ih =>
      intro n
      have hrest := ih (n + 1)
      rw [romWords] at hrest ⊢
      rw [List.map_cons, List.zipIdx_cons, List.filterMap_cons]
      simp only [stripComment_bits, bits_beq_empty, Bool.false_eq_true, if_false]
      rw [List.filterMapM_cons, hrest, romWord?, romWord?.parse, Word.ofText?_bits]
      rfl
  exact hfrom 0

namespace CommandLine

/-- A processor with the program that these lines hold, at its start. For bytecode the stack is
empty; nothing else is in memory. -/
def startState (written : List String) (bytecode : Bool) : Cpu where
  rom := (written.map Word.ofLine).toArray
  ram := if bytecode then Memory.zero.write 0 256 else .zero

namespace Request

/-- What is shown of a program after it was written. -/
def shown (r : Request) (symbols : SymbolTable) (written : List String) (bytecode : Bool) : List String :=
  (if r.symbols then symbolLines symbols else []) ++
    if r.execute then
      stateLines ((startState written bytecode).run (fun _ => false) r.cycles.toNat).2 bytecode
    else []

/-- What is written for the lines of a source, and what is shown after that. -/
inductive Makes (r : Request) (source : Path) (lines : List Line) : List String → List String → Prop
  | assembled {words : List Word} {s : Assembler} : source.suffix = assemblySuffix →
    assembleLines r.strict lines = .ok words s →
    Makes r source lines (words.map bits) (r.shown s.symbols (words.map bits) false)
  | translated {code : List String} {tr : Translator} : source.suffix ≠ assemblySuffix → r.format = .asm →
    translateLines source.stem { comments := r.comments, strict := r.strict, tempBase := r.tempBase } lines =
      .ok code tr →
    Makes r source lines code []
  | built {code : List String} {tr : Translator} {words : List Word} {s : Assembler} :
    source.suffix ≠ assemblySuffix → r.format = .hack →
    translateLines source.stem { comments := r.comments, strict := r.strict, tempBase := r.tempBase } lines =
      .ok code tr →
    assembleLines r.strict (code.map .raw) = .ok words s →
    Makes r source lines (words.map bits) (r.shown s.symbols (words.map bits) true)

/-- Why nothing is made of the lines of a source. -/
inductive Refuses (r : Request) (source : Path) (lines : List Line) : Failure → Prop
  | assembling {failure : Failure} {s : Assembler} : source.suffix = assemblySuffix →
    assembleLines r.strict lines = .error failure s → Refuses r source lines failure
  | translating {failure : Failure} {tr : Translator} : source.suffix ≠ assemblySuffix →
    translateLines source.stem r.translatorOptions lines = .error failure tr → Refuses r source lines failure
  | building {code : List String} {tr : Translator} {failure : Failure} {s : Assembler} :
    source.suffix ≠ assemblySuffix → translateLines source.stem r.translatorOptions lines = .ok code tr →
    assembleLines r.strict (code.map .raw) = .error failure s → Refuses r source lines failure

/-- How a request ends that has written its output, with `shown` to show: it shows all of it, or it
stops where the output has to be read and may not be. -/
inductive Shows (r : Request) (u : FileTree) (shown : List String) : Except Failure Unit → List String → Prop
  | all : (r.execute = true → r.format = .hack → u.MayRead r.output) → Shows r u shown (.ok ()) shown
  | denied {before : List String} : r.execute = true → ¬ u.MayRead r.output → before <+: shown →
    Shows r u shown (.error (.inaccessible (.denied r.output.text))) before

/-- What can become of a request to make something: how it ends, what it shows and the tree after it. -/
inductive Course (r : Request) (source : Path) (t : FileTree) : Except Failure Unit → List String → FileTree → Prop
  | unread {failure : Failure} : (t.read source).bind (Build.sourceLines source) = .error failure →
    Course r source t (.error failure) [] t
  | unmade {lines : List Line} {failure : Failure} : (t.read source).bind (Build.sourceLines source) = .ok lines →
    r.Refuses source lines failure → Course r source t (.error failure) [] t
  | unwritten {lines : List Line} {written shown : List String} {failure : Failure} {u : FileTree} :
    (t.read source).bind (Build.sourceLines source) = .ok lines → r.Makes source lines written shown →
    FileTree.write r.output (Text.unlines written).toUTF8 t = .error failure u →
    Course r source t (.error failure) [] u
  | written {lines : List Line} {written shown before : List String} {result : Except Failure Unit} {u : FileTree} :
    (t.read source).bind (Build.sourceLines source) = .ok lines → r.Makes source lines written shown →
    FileTree.write r.output (Text.unlines written).toUTF8 t = .ok () u → r.Shows u shown result before →
    Course r source t result before u

end Request

/-! ## What a goal does -/

namespace Console

theorem out_message (level : Level) (text : String) (asked : Bool) (c : Console) :
    (c.message level text asked).out = c.out := by
  unfold message
  split <;> rfl

theorem out_print (lines : List String) (c : Console) :
    (lines.foldl (fun c line => c.print line) c).out = c.out ++ Text.unlines lines := by
  induction lines generalizing c with
  | nil => simp [Text.unlines]
  | cons line lines ih =>
    rw [List.foldl_cons, ih, ← List.singleton_append, Text.unlines_append, ← String.append_assoc]
    simp [print, Text.unlines, String.append_assoc]

end Console

namespace Interaction

variable {ε α β : Type} {t u v : FileTree} {shown shown' : List String} {result : Except ε β} {a : α} {e : ε}
  {x : Interaction ε (StateM FileTree) α} {f : α → Interaction ε (StateM FileTree) β}

/-- On the tree `t` the interaction ends with `result` and the tree `u`, and has shown these lines on
the output. -/
def Yields (x : Interaction ε (StateM FileTree) α) (t : FileTree) (result : Except ε α) (shown : List String)
    (u : FileTree) : Prop :=
  ∀ c, ∃ c', c'.out = c.out ++ Text.unlines shown ∧ onTree x c t = ((result, c'), u)

namespace Yields

theorem bind (hx : Yields x t (.ok a) shown u) (hf : Yields (f a) u result shown' v) :
    Yields (x >>= f) t result (shown ++ shown') v := by
  intro c
  obtain ⟨c₁, hout₁, hr₁⟩ := hx c
  obtain ⟨c₂, hout₂, hr₂⟩ := hf c₁
  refine ⟨c₂, ?_, ?_⟩
  · rw [hout₂, hout₁, Text.unlines_append, String.append_assoc]
  · rw [onTree_bind, hr₁]
    exact hr₂

/-- What follows something that shows nothing. -/
theorem after (hx : Yields x t (.ok a) [] u) (hf : Yields (f a) u result shown v) :
    Yields (x >>= f) t result shown v :=
  hx.bind hf

theorem bind_error (hx : Yields x t (.error e) shown u) : Yields (x >>= f) t (.error e) shown u := by
  intro c
  obtain ⟨c₁, hout₁, hr₁⟩ := hx c
  refine ⟨c₁, hout₁, ?_⟩
  rw [onTree_bind, hr₁]

theorem pure (a : α) (t : FileTree) : Yields (pure a : Interaction ε (StateM FileTree) α) t (.ok a) [] t :=
  fun c => ⟨c, by simp [Text.unlines], rfl⟩

theorem throw (e : ε) (t : FileTree) : Yields (throw e : Interaction ε (StateM FileTree) α) t (.error e) [] t :=
  fun c => ⟨c, by simp [Text.unlines], rfl⟩

theorem ofExcept (r : Except ε α) (t : FileTree) :
    Yields (MonadExcept.ofExcept r : Interaction ε (StateM FileTree) α) t r [] t := by
  intro c
  refine ⟨c, by simp [Text.unlines], ?_⟩
  cases r <;> rfl

theorem onHost {action : StateM FileTree α} (h : action.run t = (a, u)) :
    Yields (onHost action : Interaction ε (StateM FileTree) α) t (.ok a) [] u := by
  intro c
  refine ⟨c, by simp [Text.unlines], ?_⟩
  rw [onTree_onHost, h]

theorem message (level : Level) (text : String) (asked : Bool) (t : FileTree) :
    Yields (display (Console.message level text asked) : Interaction ε (StateM FileTree) Unit) t (.ok ()) [] t :=
  fun c => ⟨_, by simp [Console.out_message, Text.unlines], rfl⟩

theorem printLines (lines : List String) (t : FileTree) :
    Yields (printLines lines : Interaction ε (StateM FileTree) Unit) t (.ok ()) lines t :=
  fun c => ⟨_, c.out_print lines, rfl⟩

/-- Something that may be done before the rest. -/
theorem when {b : Prop} [Decidable b] {x : Interaction ε (StateM FileTree) Unit}
    {next : Unit → Interaction ε (StateM FileTree) β} (hx : Yields x t (.ok ()) shown t)
    (hnext : Yields (next ()) t result shown' u) :
    Yields (if b then x >>= next else next ()) t result ((if b then shown else []) ++ shown') u := by
  split
  · exact hx.bind hnext
  · exact hnext

end Yields

end Interaction

open Interaction

section

variable {α : Type} {r : Request} {source : Path} {t u : FileTree} {words : List Word} {bytecode : Bool}

theorem yields_tell (r : Request) (level : Level) (text : String) (t : FileTree) :
    Yields (Goal.tell r level text : Goal (StateM FileTree) Unit) t (.ok ()) [] t :=
  .message level text r.verbose t

theorem yields_warnings (r : Request) (warnings : List String) (t : FileTree) :
    Yields (warnings.forM (Goal.tell r .warning) : Goal (StateM FileTree) PUnit) t (.ok ()) [] t := by
  induction warnings with
  | nil => exact .pure _ t
  | cons warning warnings ih => exact (yields_tell r _ _ t).bind ih

theorem yields_report (r : Request) (build : StateM FileTree (Build.Outcome α)) (t : FileTree) :
    Yields (Goal.report r build) t (build.run t).1.result [] (build.run t).2 :=
  .bind (.onHost rfl) (.bind (yields_warnings r _ _) (.ofExcept _ _))

/-- A program that was written and may be read is executed, from its start. -/
theorem yields_executeOutput (hwrite : FileTree.write r.output (Text.unlines (words.map bits)).toUTF8 t = .ok () u)
    (hmay : u.MayRead r.output) (hlength : words.length ≤ 32768) :
    Yields (executeOutput r bytecode : Goal (StateM FileTree) Unit) u (.ok ())
      (stateLines ((startState (words.map bits) bytecode).run (fun _ => false) r.cycles.toNat).2 bytecode) u := by
  have hlines : (u.read r.output).bind (Build.sourceLines r.output) =
      .ok (meaningfulLines (some r.output) (words.map bits)) := by
    rw [FileTree.read_of_holds (FileTree.holds_of_write hwrite) hmay, Except.bind, Build.sourceLines_toUTF8,
      Text.lines_unlines]
    exact List.forall_mem_map.2 fun w _ => unbroken_bits w
  have hread : Yields (onHostOr id (Build.readLines r.output) : Goal (StateM FileTree) _) u
      (.ok (meaningfulLines (some r.output) (words.map bits))) [] u := by
    refine .bind (.onHost (Build.readLines_run r.output u)) ?_
    rw [hlines]
    exact .pure _ u
  have hstart : (if bytecode then Cpu.withEmptyStack { rom := words.toArray } else { rom := words.toArray }) =
      startState (words.map bits) bytecode := by
    have hwords : (words.map bits).map Word.ofLine = words := by simp [Function.comp_def, Word.ofLine_bits]
    rw [startState, hwords]
    cases bytecode <;> rfl
  have hromWords : Yields (MonadExcept.ofExcept (romWords (meaningfulLines (some r.output) (words.map bits))) :
      Goal (StateM FileTree) _) u (.ok words) [] u := by
    rw [romWords_meaningfulLines]
    exact .ofExcept _ u
  have hcpu : Yields (MonadExcept.ofExcept (Cpu.load words) : Goal (StateM FileTree) _) u
      (.ok { rom := words.toArray }) [] u := by
    rw [Cpu.load_of_length_le hlength]
    exact .ofExcept _ u
  unfold executeOutput
  refine hread.after (hromWords.after (hcpu.after ?_))
  dsimp only
  rw [hstart]
  refine (yields_tell r _ _ u).after ?_
  split
  · exact (Yields.message _ _ _ u).after ((yields_tell r _ _ u).after (.printLines _ u))
  · exact (yields_tell r _ _ u).after (.printLines _ u)

theorem yields_executeOutput_of_denied {content : ByteArray} (hwrite : FileTree.write r.output content t = .ok () u)
    (hdenied : ¬ u.MayRead r.output) :
    Yields (executeOutput r bytecode : Goal (StateM FileTree) Unit) u
      (.error (.inaccessible (.denied r.output.text))) [] u := by
  refine .bind_error (.bind (.onHost (Build.readLines_run r.output u)) ?_)
  rw [FileTree.read_of_denied (FileTree.holds_of_write hwrite) hdenied]
  exact .throw _ u

theorem yields_showResults (hwrite : FileTree.write r.output (Text.unlines (words.map bits)).toUTF8 t = .ok () u)
    (hlength : words.length ≤ 32768) (symbols : SymbolTable) :
    ∃ result before, r.Shows u (r.shown symbols (words.map bits) bytecode) result before ∧
      Yields (showResults r symbols bytecode : Goal (StateM FileTree) Unit) u result before u := by
  have hsymbols : ∀ result shown,
      Yields (if r.execute = true then executeOutput r bytecode else pure () : Goal (StateM FileTree) Unit) u result
        shown u →
      Yields (showResults r symbols bytecode : Goal (StateM FileTree) Unit) u result
        ((if r.symbols then symbolLines symbols else []) ++ shown) u := by
    intro result shown h
    unfold showResults
    exact .when (.printLines _ u) h
  by_cases hexecute : r.execute = true
  · rw [if_pos hexecute] at hsymbols
    by_cases hmay : u.MayRead r.output
    · refine ⟨_, _, .all fun _ _ => hmay, ?_⟩
      rw [Request.shown, if_pos hexecute]
      exact hsymbols _ _ (yields_executeOutput hwrite hmay hlength)
    · refine ⟨_, _, .denied hexecute hmay ⟨_, rfl⟩, ?_⟩
      have hdenied := hsymbols _ _ (yields_executeOutput_of_denied hwrite hmay)
      rwa [List.append_nil] at hdenied
  · rw [if_neg hexecute] at hsymbols
    refine ⟨_, _, .all fun h => absurd h hexecute, ?_⟩
    rw [Request.shown, if_neg hexecute]
    exact hsymbols _ _ (.pure _ u)

/-- The goal takes one of the courses that the request allows. -/
def TakesCourse (r : Request) (source : Path) (t : FileTree) (goal : Goal (StateM FileTree) Unit) : Prop :=
  ∃ result shown u, r.Course source t result shown u ∧ Yields goal t result shown u

theorem TakesCourse.after {x : Goal (StateM FileTree) α} {a : α} {f : α → Goal (StateM FileTree) Unit}
    (hx : Yields x t (.ok a) [] t) (hf : TakesCourse r source t (f a)) : TakesCourse r source t (x >>= f) := by
  obtain ⟨result, shown, u, hcourse, hyields⟩ := hf
  exact ⟨result, shown, u, hcourse, hx.after hyields⟩

/-- A build is reported, and what follows it shows what belongs to what was made. -/
theorem takesCourse_report {make : List Line → Build.Outcome (List String × α)}
    {build : StateM FileTree (Build.Outcome α)} {rest : α → Goal (StateM FileTree) Unit}
    (hrun : build.run t = Build.delivered r.output (Build.ofSource make source t) t)
    (hrefused : ∀ lines failure, (make lines).result = .error failure → r.Refuses source lines failure)
    (hmade : ∀ lines written a, (make lines).result = .ok (written, a) → ∃ shown, r.Makes source lines written shown ∧
      ∀ u, FileTree.write r.output (Text.unlines written).toUTF8 t = .ok () u →
        ∃ result before, r.Shows u shown result before ∧ Yields (rest a) u result before u) :
    TakesCourse r source t (Goal.report r build >>= rest) := by
  have hreport := yields_report r build t
  have hcourse := Build.course_delivered make source r.output t
  rw [← hrun] at hcourse
  generalize build.run t = outcome at hreport hcourse
  obtain ⟨⟨result, warnings⟩, u⟩ := outcome
  cases hcourse with
  | unread hread => exact ⟨_, _, _, .unread hread, hreport.bind_error⟩
  | unmade hread hfail => exact ⟨_, _, _, .unmade hread (hrefused _ _ hfail), hreport.bind_error⟩
  | unwritten hread hok hwrite =>
    obtain ⟨shown, hmakes, -⟩ := hmade _ _ _ hok
    exact ⟨_, _, _, .unwritten hread hmakes hwrite, hreport.bind_error⟩
  | written hread hok hwrite =>
    obtain ⟨shown, hmakes, hrest⟩ := hmade _ _ _ hok
    obtain ⟨result, before, hshows, hyields⟩ := hrest _ hwrite
    exact ⟨_, _, _, .written hread hmakes hwrite hshows, hreport.after hyields⟩

theorem takesCourse_assembleSource (h : source.suffix = assemblySuffix) :
    TakesCourse r source t (assembleSource r source) := by
  refine .after (yields_tell r _ _ t) (takesCourse_report (Build.assembleFile_run source r.output r.strict t) ?_ ?_)
  · intro lines failure hfail
    obtain ⟨s, hfail⟩ := Build.assembled_eq_error hfail
    exact .assembling h hfail
  · intro lines written symbols hok
    obtain ⟨words, s, hwords, rfl, rfl⟩ := Build.assembled_eq_ok hok
    refine ⟨_, .assembled h hwords, fun u hwrite => ?_⟩
    obtain ⟨result, before, hshows, hyields⟩ := yields_showResults hwrite (length_le_of_assembleLines hwords) _
    exact ⟨result, before, hshows, (yields_tell r _ _ u).after hyields⟩

theorem takesCourse_buildSource (h : source.suffix ≠ assemblySuffix) (hformat : r.format = .hack) :
    TakesCourse r source t (buildSource r source) := by
  refine .after (yields_tell r _ _ t)
    (takesCourse_report (Build.buildFile_run source r.output r.translatorOptions r.strict t) ?_ ?_)
  · intro lines failure hfail
    rcases Build.built_eq_error hfail with hcode | ⟨code, hcode, hwords⟩
    · obtain ⟨tr, hfail⟩ := Build.translated_eq_error hcode
      exact .translating h hfail
    · obtain ⟨tr, hcode⟩ := Build.translated_eq_ok hcode
      obtain ⟨s, hfail⟩ := Build.assembled_eq_error hwords
      exact .building h hcode hfail
  · intro lines written symbols hok
    obtain ⟨code, hcode, hmade⟩ := Build.built_eq_ok hok
    obtain ⟨tr, hcode⟩ := Build.translated_eq_ok hcode
    obtain ⟨words, s, hwords, rfl, rfl⟩ := Build.assembled_eq_ok hmade
    refine ⟨_, .built h hformat hcode hwords, fun u hwrite => ?_⟩
    obtain ⟨result, before, hshows, hyields⟩ := yields_showResults hwrite (length_le_of_assembleLines hwords) _
    exact ⟨result, before, hshows, (yields_tell r _ _ u).after hyields⟩

theorem takesCourse_translateSource (h : source.suffix ≠ assemblySuffix) (hformat : r.format = .asm) :
    TakesCourse r source t (translateSource r source) := by
  have hreport : TakesCourse r source t (do
      Goal.report r (Build.translateFile source r.output r.translatorOptions)
      Goal.tell r .info ("Translated input file down to `" ++ r.output.name ++ "`!")) := by
    refine takesCourse_report (Build.translateFile_run source r.output r.translatorOptions t) ?_ ?_
    · intro lines failure hfail
      cases hcode : (Build.translated source r.translatorOptions lines).result with
      | ok code =>
        rw [hcode] at hfail
        cases hfail
      | error e =>
        rw [hcode] at hfail
        cases hfail
        obtain ⟨tr, hfail⟩ := Build.translated_eq_error hcode
        exact .translating h hfail
    · intro lines written _ hok
      cases hcode : (Build.translated source r.translatorOptions lines).result with
      | ok code =>
        rw [hcode] at hok
        cases hok
        obtain ⟨tr, hcode⟩ := Build.translated_eq_ok hcode
        refine ⟨_, .translated h hformat hcode, fun u _ => ⟨_, _, .all fun _ hhack => ?_, yields_tell r _ _ u⟩⟩
        rw [hformat] at hhack
        cases hhack
      | error e =>
        rw [hcode] at hok
        cases hok
  refine .after (yields_tell r _ _ t) ?_
  dsimp only
  split
  · exact .after (yields_tell r _ _ t) hreport
  · exact hreport

/-- **A request to make something takes one of its courses.** -/
theorem takesCourse_perform (i : Invocation) (hversion : r.version = false) (hsources : r.sources = [source]) :
    TakesCourse r source t (perform i r) := by
  unfold perform
  rw [hversion, if_neg Bool.false_ne_true, hsources]
  dsimp only
  by_cases hsuffix : source.suffix = assemblySuffix
  · rw [if_pos (by simpa using hsuffix)]
    exact takesCourse_assembleSource hsuffix
  · rw [if_neg (by simpa using hsuffix)]
    cases hformat : r.format with
    | hack =>
      rw [if_pos rfl]
      exact takesCourse_buildSource hsuffix hformat
    | asm =>
      rw [if_neg (by decide)]
      exact takesCourse_translateSource hsuffix hformat

end

end CommandLine

end HackToolchain
