import HackToolchain.Proofs.RefusedCommands
import HackToolchain.Proofs.SessionCourse
import Mathlib
/-!
How sessions end. Every session ends with an exit code, zero, one or two, unless a failure leaves it
for which no message is made. There are few such failures, and each has its own cause: a part of
the command line that no message is made for, an output path that holds a NUL, a number with more
digits than can be read or written, or diagnostics that were to be left unwrapped. None comes
from the inside of the assembler, the translator or the processor.
-/

namespace HackToolchain

/-! ## Why nothing is made of a source -/

/-- What the assembler refuses a source with is about the source, or about a literal that is too long. -/
theorem refusal_of_assembleLines {strict : Bool} {lines : List Line} {failure : Failure} {s : Assembler}
    (h : assembleLines strict lines = .error failure s) :
    (∃ diagnostic, failure = .diagnosed diagnostic) ∨
      ∃ symbol, .address symbol ∈ Program.ofLines lines ∧ Text.isNumeral symbol.toList = true ∧
        Text.digitLimit < symbol.length ∧ failure = .numeral (.tooLong symbol.length) := by
  rcases (Assembler.refused h).1 with hresolve | ⟨-, -, hencode⟩
  · cases hresolve with
    | @malformed line _ hline hreading =>
      rw [Line.reading?] at hreading
      split at hreading
      · cases hreading
      rw [Option.some.injEq, Instruction.classify] at hreading
      split at hreading
      · cases hreading
      · cases hreading
        exact .inl ⟨_, rfl⟩
    | duplicateLabel | instructions => exact .inl ⟨_, rfl⟩
  · cases hencode with
    | digits hmem hnumeral hlong => exact .inr ⟨_, hmem, hnumeral, hlong, rfl⟩
    | address | data | unknownComputation | unknownJump | unrecognized => exact .inl ⟨_, rfl⟩

/-- What a unit is refused with is about one of its lines, or about a number that is too long. -/
theorem refusal_of_translateLines {name : String} {options : Translator.Options} {lines : List Line}
    {failure : Failure} {tr : Translator} (hlines : ∀ line ∈ lines, Text.words line.content.toList ≠ [])
    (h : translateLines name options lines = .error failure tr) :
    (∃ diagnostic, failure = .diagnosed diagnostic) ∨
      (∃ line ∈ lines, ∃ first segment digits, Text.words line.content.toList = [first, segment, digits] ∧
        Text.isNumeral digits = true ∧ Text.digitLimit < digits.length ∧
        failure = .numeral (.tooLong digits.length)) ∨
      ∃ line ∈ lines, ∃ c segment offset, Command.classify line.content line.location = .ok c ∧
        (c = .push segment offset ∨ c = .pop segment offset) ∧ Translator.TooWide options segment offset ∧
        failure = .numeral .tooWide := by
  obtain ⟨line, hline, -, hfault⟩ := Translator.fault_of_translateLines h
  cases hfault with
  | operation | command => exact .inl ⟨_, rfl⟩
  | width hclassify hc hwide => exact .inr (.inr ⟨line, hline, _, _, _, hclassify, hc, hwide, rfl⟩)
  | grammar hgrammar =>
    cases hgrammar with
    | operands | segment => exact .inl ⟨_, rfl⟩
    | digits hwords hnumeral hlong => exact .inr (.inl ⟨line, hline, _, _, _, hwords, hnumeral, hlong, rfl⟩)
    | blank hwords => exact absurd hwords (hlines line hline)

/-- There is a word in every line that counts. -/
theorem words_of_mem_meaningfulLines {file? : Option Path} {ls : List String} {line : Line}
    (h : line ∈ meaningfulLines file? ls) : Text.words line.content.toList ≠ [] := by
  obtain ⟨⟨l, row⟩, -, hmade⟩ := List.mem_filterMap.1 h
  dsimp only at hmade
  split at hmade
  · cases hmade
  next hne =>
    cases hmade
    rw [beq_iff_eq] at hne
    exact words_stripComment_ne_nil (l := l) hne

/-- What is refused when a translation is assembled is reported: its literals can all be read. -/
theorem refusal_of_translation {name : String} {options : Translator.Options} {lines : List Line} {code : List String}
    {tr : Translator} {strict : Bool} {failure : Failure} {s : Assembler} (ho : options.Sound)
    (hcode : translateLines name options lines = .ok code tr)
    (h : assembleLines strict (code.map .raw) = .error failure s) : ∃ diagnostic, failure = .diagnosed diagnostic := by
  refine (refusal_of_assembleLines h).resolve_right ?_
  rintro ⟨symbol, hmem, hnumeral, hlong, -⟩
  rw [(program_of_translateLines ho hcode).2] at hmem
  have hbrief := (Translator.spells_of_translateLines hcode).2 _ hmem hnumeral
  exact Nat.not_lt.2 hbrief hlong

namespace CommandLine

open Interaction

/-! ## What leaves a session -/

/-- A number in the lines of a source, or one that the code for it needs, has more digits than can
be read or written. -/
inductive Settings.LongNumber (s : Settings) (source : Path) (lines : List Line) : Text.NumeralFault → Prop
  | literal {symbol : String} : source.suffix = assemblySuffix → .address symbol ∈ Program.ofLines lines →
    Text.isNumeral symbol.toList = true → Text.digitLimit < symbol.length →
    LongNumber s source lines (.tooLong symbol.length)
  | offset {line : Line} {first segment digits : List Char} : source.suffix = bytecodeSuffix → line ∈ lines →
    Text.words line.content.toList = [first, segment, digits] → Text.isNumeral digits = true →
    Text.digitLimit < digits.length → LongNumber s source lines (.tooLong digits.length)
  | address {line : Line} {c : Command} {segment : Segment} {offset : Nat} {tempBase : Int} :
    source.suffix = bytecodeSuffix → line ∈ lines → Command.classify line.content line.location = .ok c →
    c = .push segment offset ∨ c = .pop segment offset → s.tempBase = .value tempBase →
    Translator.TooWide { tempBase } segment offset → LongNumber s source lines .tooWide

/-- The failures that leave a session, and what causes them. -/
inductive Invocation.Leak (i : Invocation) (t : FileTree) : Failure → Prop
  | usage {halt : Halt} {fault : Text.TemplateFault} : readSettings i.words = .error halt →
    usage (programName none i.startedAs) = .error fault → Leak i t (.template fault)
  | settings {s : Settings} {failure : Failure} : readSettings i.words = .ok s → s.Leak t failure → Leak i t failure
  | unwrapped {s : Settings} {diagnostic : Diagnostic} : readSettings i.words = .ok s → s.friendly = false →
    Leak i t (.diagnosed diagnostic)
  | output {s : Settings} : readSettings i.words = .ok s → s.version = false → Char.ofNat 0 ∈ s.output.toList →
    Leak i t .nulInPath
  | number {s : Settings} {source : Path} {content : ByteArray} {cs : List Char} {fault : Text.NumeralFault} :
    readSettings i.words = .ok s → s.version = false → s.sources.map Path.ofString = [source] →
    t.read source = .ok content → Text.decodeUtf8 content = .ok cs →
    s.LongNumber source (meaningfulLines (some source) (Text.lines cs)) fault → Leak i t (.numeral fault)

section

variable {s : Settings} {r : Request} {source : Path} {lines : List Line} {t : FileTree} {failure : Failure}

/-- A source that can be processed and is no assembly is bytecode. -/
theorem Processable.bytecode (h : Processable source) (hsuffix : source.suffix ≠ assemblySuffix) :
    source.suffix = bytecodeSuffix :=
  h.resolve_left hsuffix

theorem sound_translatorOptions (h : s.Settles t r) : r.translatorOptions.Sound where
  tempBase := h.tempBase_nonneg
  pointerBase := show (0 : Int) ≤ 3 by decide
  labelStart := .inr (show Instruction.isSymbolName "LABEL".toList = true by decide)

theorem tooWide_translatorOptions {segment : Segment} {offset : Nat}
    (h : Translator.TooWide r.translatorOptions segment offset) :
    Translator.TooWide { tempBase := r.tempBase } segment offset := by
  obtain ⟨base, hbase, hwide⟩ := h
  exact ⟨base, by cases segment <;> exact hbase, hwide⟩

theorem longNumber_of_refuses (hsettles : s.Settles t r) (hprocessable : Processable source)
    (hlines : ∀ line ∈ lines, Text.words line.content.toList ≠ []) (h : r.Refuses source lines failure) :
    (∃ diagnostic, failure = .diagnosed diagnostic) ∨
      ∃ fault, failure = .numeral fault ∧ s.LongNumber source lines fault := by
  cases h with
  | assembling hsuffix hfail =>
    refine (refusal_of_assembleLines hfail).imp_right ?_
    rintro ⟨symbol, hmem, hnumeral, hlong, rfl⟩
    exact ⟨_, rfl, .literal hsuffix hmem hnumeral hlong⟩
  | translating hsuffix hfail =>
    have hbytecode := hprocessable.bytecode hsuffix
    refine (refusal_of_translateLines hlines hfail).imp_right ?_
    rintro (⟨line, hline, first, segment, digits, hwords, hnumeral, hlong, rfl⟩ |
      ⟨line, hline, c, segment, offset, hclassify, hc, hwide, rfl⟩)
    · exact ⟨_, rfl, .offset hbytecode hline hwords hnumeral hlong⟩
    · exact ⟨_, rfl, .address hbytecode hline hclassify hc hsettles.tempBase (tooWide_translatorOptions hwide)⟩
  | building _ hcode hfail =>
    exact .inl (refusal_of_translation (sound_translatorOptions hsettles) hcode hfail)

theorem not_mem_suffix (format : Format) (source : Path) : Char.ofNat 0 ∉
    (if source.suffix == format.suffix then source.suffix ++ format.suffix else format.suffix).toList := by
  have hformat : Char.ofNat 0 ∉ format.suffix.toList := by cases format <;> decide
  split
  next hsame =>
    rw [beq_iff_eq] at hsame
    rw [hsame, String.toList_append, List.mem_append]
    exact fun h => h.elim hformat hformat
  · exact hformat

/-- The output holds a NUL only if it was given so. -/
theorem Settings.Job.nul_of_output {format : Format} {output : Path} (h : s.Job t source format output)
    (hnul : output.HoldsNul) : Char.ofNat 0 ∈ s.output.toList := by
  have hchosen := h.chosen
  split at hchosen
  · unfold inferOutput at hchosen
    dsimp only at hchosen
    split at hchosen
    next path hpath =>
      cases hchosen
      have hsource := Path.holdsNul_of_withSuffix? (not_mem_suffix format source) hpath hnul
      exact absurd hsource (FileTree.not_holdsNul_of_present h.present)
    · cases hchosen
  · cases hchosen
    exact Path.mem_of_holdsNul_ofString hnul

/-- What a goal fails with is shown, unless a number is too long or the output holds a NUL. -/
theorem Request.Course.failure_cases {u : FileTree} {shown : List String} (hsettles : s.Settles t r)
    (hjob : s.Job t source r.format r.output) (h : r.Course source t (.error failure) shown u) :
    (∃ diagnostic, failure = .diagnosed diagnostic) ∨ (∃ offset, failure = .undecodable offset) ∨
      (∃ fault, failure = .inaccessible fault) ∨ (failure = .nulInPath ∧ Char.ofNat 0 ∈ s.output.toList) ∨
      ∃ content cs fault, t.read source = .ok content ∧ Text.decodeUtf8 content = .ok cs ∧ failure = .numeral fault ∧
        s.LongNumber source (meaningfulLines (some source) (Text.lines cs)) fault := by
  cases h with
  | unread hread =>
    cases hcontent : t.read source with
    | error e =>
      rw [hcontent] at hread
      cases hread
      obtain ⟨fault, rfl⟩ := FileTree.read_eq_error (FileTree.not_holdsNul_of_present hjob.present) hcontent
      exact .inr (.inr (.inl ⟨fault, rfl⟩))
    | ok content =>
      rw [hcontent, Except.bind, Build.sourceLines] at hread
      split at hread
      · cases hread
      · cases hread
        exact .inr (.inl ⟨_, rfl⟩)
  | unmade hread hrefuses =>
    obtain ⟨content, cs, hcontent, hcs, rfl⟩ := Build.lines_of_read hread
    rcases longNumber_of_refuses hsettles hjob.processable (fun line => words_of_mem_meaningfulLines) hrefuses with
      hdiagnosed | ⟨fault, hnumeral, hlong⟩
    · exact .inl hdiagnosed
    · exact .inr (.inr (.inr (.inr ⟨content, cs, fault, hcontent, hcs, hnumeral, hlong⟩)))
  | unwritten _ _ hwrite =>
    rcases FileTree.failsWith_write _ _ _ _ _ hwrite with hfault | ⟨rfl, hnul⟩
    · exact .inr (.inr (.inl hfault))
    · exact .inr (.inr (.inr (.inl ⟨rfl, hjob.nul_of_output hnul⟩)))
  | written _ _ _ hshows =>
    cases hshows with
    | denied => exact .inr (.inr (.inl ⟨_, rfl⟩))

end

/-- How a session ends: with one of three exit codes, or with a failure that has a cause. -/
def Invocation.Ends (i : Invocation) (t : FileTree) (stop : Stop) : Prop :=
  (stop = .exit 0 ∨ stop = .exit 1 ∨ stop = .exit 2) ∨ ∃ failure, stop = .escape failure ∧ i.Leak t failure

theorem Invocation.Stops.ends {i : Invocation} {t : FileTree} {stop : Stop} (h : i.Stops t stop) : i.Ends t stop := by
  cases h with
  | help => exact .inl (.inl rfl)
  | refused => exact .inl (.inr (.inr rfl))
  | nameless hhalt hfault => exact .inr ⟨_, rfl, .usage hhalt hfault⟩
  | checked hs hstop =>
    cases hstop with
    | message => exact .inl (.inr (.inl rfl))
    | leak hleak => exact .inr ⟨_, rfl, .settings hs hleak⟩

theorem Invocation.Course.ends {i : Invocation} {t u : FileTree} {stop : Stop} {out : String}
    (h : i.Course t stop u out) : i.Ends t stop := by
  cases h with
  | stopped hstopped => exact hstopped.ends
  | version => exact .inl (.inl rfl)
  | @goal s r source result shown _ hs hversion hsettles hsources hjob hcourse =>
    cases result with
    | ok _ => exact .inl (.inl rfl)
    | error failure =>
      rcases hcourse.failure_cases hsettles hjob with ⟨diagnostic, rfl⟩ | ⟨offset, rfl⟩ | ⟨fault, rfl⟩ | ⟨rfl, hnul⟩ |
        ⟨content, cs, fault, hcontent, hcs, rfl, hlong⟩
      · rw [Request.stop]
        cases hfriendly : r.friendly with
        | true => exact .inl (.inr (.inl rfl))
        | false => exact .inr ⟨_, rfl, .unwrapped hs (hsettles.friendly.symm.trans hfriendly)⟩
      · exact .inl (.inr (.inl rfl))
      · exact .inl (.inr (.inl rfl))
      · exact .inr ⟨_, rfl, .output hs hversion hnul⟩
      · exact .inr ⟨_, rfl, .number hs hversion hjob.sources hcontent hcs hlong⟩

/-- **Every session ends with exit code zero, one or two, unless a failure with one of a few causes
leaves it.** Whatever the command line and the tree: an option was left blank; the version was
asked for, without an output, for a source without a name; the path of the source is too long, or leads
through a directory that may not be searched; the output holds a NUL; a number in the source, or one
that the code for it needs, has too many digits; diagnostics were to be left unwrapped; or the name of
the program cannot be shown. -/
theorem session_exits_unless_leaking (i : Invocation) (terminal : Bool) (t : FileTree) :
    let final := ((session i).run terminal : StateM FileTree _).run t
    (final.1.1 = .error (.exit 0) ∨ final.1.1 = .error (.exit 1) ∨ final.1.1 = .error (.exit 2)) ∨
      ∃ failure, final.1.1 = .error (.escape failure) ∧ i.Leak t failure := by
  intro final
  obtain ⟨stop, hstop, hcourse⟩ := course_session i terminal t
  rw [show final.1.1 = .error stop from hstop]
  simpa [Invocation.Ends] using hcourse.ends

/-- The version is asked for, with the working directory as a source: it has no name, so no output can
be inferred from it, although none is needed. -/
theorem version_of_nameless_source_leaks :
    let i : Invocation := { startedAs := "hackforge", words := ["--version", "."], platform := "", runtime := "" }
    readSettings i.words = .ok { sources := ["."], version := true } ∧
      (((session i).run false : StateM FileTree _).run {}).1.1 = .error (.escape (.namelessPath (.ofString "."))) := by
  intro i
  have hsettings : readSettings i.words = .ok { sources := ["."], version := true } := by decide +kernel
  refine ⟨hsettings, ?_⟩
  have hsources : checkSources { sources := ["."], version := true } =
      (pure [.ofString "."] : Session (StateM FileTree) _) := by
    simp only [checkSources, if_true, List.map_cons, List.map_nil]
  have hformat : checkFormat [.ofString "."] none = (pure .asm : Session (StateM FileTree) _) := by
    have hinfer : inferFormat (.ofString ".") none = some .asm := by decide +kernel
    simp only [checkFormat, hinfer]
  have houtput : checkOutput [.ofString "."] "" .asm =
      (throw (.escape (.namelessPath (.ofString "."))) : Session (StateM FileTree) _) := by
    have hinfer : inferOutput [.ofString "."] .asm = .error (.namelessPath (.ofString ".")) := by decide +kernel
    simp only [checkOutput, beq_self_eq_true, if_true, hinfer]
  have hchecked : ∀ c t, onTree (checkSettings { sources := ["."], version := true }) c t =
      ((.error (.escape (.namelessPath (.ofString "."))), c), t) := by
    intro c t
    rw [checkSettings, hsources, pure_bind, filled, pure_bind, hformat, pure_bind, houtput, onTree_bind, onTree_throw]
  have hfinal : ((session i).run false : StateM FileTree _).run {} = onTree (session i) {} {} := rfl
  rw [hfinal, onTree_session, onTree_bind, readRequest_of_settings hsettings, hchecked]

end CommandLine

end HackToolchain
