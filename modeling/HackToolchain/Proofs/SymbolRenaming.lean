import HackToolchain.Proofs.InstructionGrammar
import HackToolchain.Proofs.Renaming
import Mathlib
/-!
Renaming the symbols of a source. A symbol is renamed where it stands: the line keeps its blanks, its
marks and its comment, and only the characters of the name are replaced. The renamed line is read as
the renamed instruction. So if the new names are as different as the old ones were, and those that
are predefined stay, then the source is assembled into the same words as before.
-/

namespace HackToolchain

open Instruction

/-! ## The first name in a text -/

/-- The text with the first run of symbol characters replaced by what it is renamed to. -/
def renameFirst (f : String → String) (cs : List Char) : List Char :=
  let rest := cs.dropWhile (!isSymbolChar ·)
  cs.takeWhile (!isSymbolChar ·) ++ (f (String.ofList (rest.takeWhile isSymbolChar))).toList ++
    rest.dropWhile isSymbolChar

/-- A name between the marks before it and what follows it. Before it there are no comments, and what
follows does not continue the name. -/
structure Framed (marks name tail : List Char) : Prop where
  marks : ∀ c ∈ marks, isSymbolChar c = false ∧ c ≠ '/'
  name_ne : name ≠ []
  name : ∀ c ∈ name, isSymbolChar c = true
  tail : ∀ c ∈ tail.head?, isSymbolChar c = false

theorem Framed.of_symbolName {marks name tail : List Char} (hmarks : ∀ c ∈ marks, isSymbolChar c = false ∧ c ≠ '/')
    (hname : SymbolName name) (htail : ∀ c ∈ tail.head?, isSymbolChar c = false) : Framed marks name tail :=
  ⟨hmarks, hname.ne_nil, isSymbolChar_of_symbol (.inr hname), htail⟩

theorem Framed.renameFirst_eq {f : String → String} {marks tail : List Char} {name : String}
    (h : Framed marks name.toList tail) :
    renameFirst f (marks ++ name.toList ++ tail) = marks ++ (f name).toList ++ tail := by
  have hstart : ∀ c ∈ (name.toList ++ tail).head?, (!isSymbolChar c) = false := by
    obtain ⟨c, cs, hname⟩ := List.exists_cons_of_ne_nil h.name_ne
    have hc := h.name c (by simp [hname])
    simp [hname, hc]
  have hmarks : ∀ c ∈ marks, (!isSymbolChar c) = true := fun c hc => by simp [h.marks c hc]
  obtain ⟨htake, hdrop⟩ := Text.takeWhile_stop hmarks hstart
  obtain ⟨htake', hdrop'⟩ := Text.takeWhile_stop h.name h.tail
  rw [List.append_assoc marks name.toList tail, renameFirst, htake, hdrop, htake', hdrop', String.ofList_toList]

/-! ## Names in raw lines -/

theorem beforeComment_append {xs : List Char} (h : ∀ c ∈ xs, c ≠ '/') (ys : List Char) :
    beforeComment (xs ++ ys) = xs ++ beforeComment ys := by
  induction xs with
  | nil => rfl
  | cons x xs ih =>
    obtain ⟨hx, hxs⟩ := List.forall_mem_cons.1 h
    rw [List.cons_append, beforeComment_cons hx, ih hxs, List.cons_append]

/-- A text is what stands before its comment, and the comment. -/
theorem exists_comment (cs : List Char) : ∃ comment, cs = beforeComment cs ++ comment ∧ ∀ c ∈ comment.head?, c = '/' := by
  fun_induction beforeComment cs with
  | case1 => exact ⟨[], rfl, by simp⟩
  | case2 rest => exact ⟨'/' :: '/' :: rest, rfl, by simp⟩
  | case3 c cs _ ih =>
    obtain ⟨comment, hcs, hhead⟩ := ih
    exact ⟨comment, congrArg (c :: ·) hcs, hhead⟩

theorem Text.getLast?_trim {cs : List Char} {c : Char} (h : c ∈ (trim cs).getLast?) : isBlank c = false := by
  rw [trim, trimBoth, List.getLast?_reverse] at h
  have hne : (cs.dropWhile isBlank).reverse.dropWhile isBlank ≠ [] := by
    intro hnil
    simp [hnil] at h
  have hhead := List.head_dropWhile_not isBlank hne
  rwa [(List.head_eq_iff_head?_eq_some hne).2 h] at hhead

theorem not_isSymbolChar_of_isBlank {c : Char} (h : Text.isBlank c = true) : isSymbolChar c = false := by
  by_contra hc
  rw [Bool.not_eq_false] at hc
  simp [isBlank_of_isPlain (isPlain_of_isSymbolChar hc)] at h

theorem ne_slash_of_isBlank {c : Char} (h : Text.isBlank c = true) : c ≠ '/' := by
  rintro rfl
  cases h

namespace Framed

variable {marks name tail before after comment : List Char}

theorem ne_slash (h : Framed marks name tail) : ∀ c ∈ marks ++ name, c ≠ '/' :=
  List.forall_mem_append.2 ⟨fun c hc => (h.marks c hc).2,
    fun c hc => ne_slash_of_isPlain (isPlain_of_isSymbolChar (h.name c hc))⟩

/-- Blanks before, and blanks and a comment after, are part of the frame. -/
theorem widen (h : Framed marks name tail) (hb : Text.Blank before) (ha : Text.Blank after)
    (hcomment : ∀ c ∈ comment.head?, c = '/') : Framed (before ++ marks) name (tail ++ after ++ comment) := by
  refine ⟨List.forall_mem_append.2 ⟨fun c hc => ?_, h.marks⟩, h.name_ne, h.name, fun c hc => ?_⟩
  · exact ⟨not_isSymbolChar_of_isBlank (hb c hc), ne_slash_of_isBlank (hb c hc)⟩
  · rw [List.append_assoc, List.head?_append] at hc
    cases tail with
    | cons d tail => exact h.tail c hc
    | nil =>
      cases after with
      | cons d after =>
        obtain rfl : d = c := by simpa using hc
        exact not_isSymbolChar_of_isBlank (ha d List.mem_cons_self)
      | nil =>
        rw [hcomment c hc]
        decide

/-- What is before the comment does not change but for the name. -/
theorem beforeComment_eq {name' : List Char} (h : Framed marks name tail) (h' : Framed marks name' tail)
    (hold : beforeComment (marks ++ name ++ tail) = marks ++ name ++ after) :
    beforeComment (marks ++ name' ++ tail) = marks ++ name' ++ after := by
  rw [beforeComment_append h.ne_slash] at hold
  rw [beforeComment_append h'.ne_slash, List.append_cancel_left hold]

theorem trimmed (h : Framed marks name tail) (hstart : ∃ c ∈ marks.head?, Text.isBlank c = false)
    (htail : ∀ c ∈ tail.getLast?, Text.isBlank c = false) : Text.Trimmed (marks ++ name ++ tail) := by
  obtain ⟨first, hfirst, hplain⟩ := hstart
  refine ⟨fun c hc => ?_, fun c hc => ?_⟩
  · rw [List.append_assoc, List.head?_append, Option.mem_def.1 hfirst] at hc
    cases hc
    exact hplain
  · cases tail with
    | nil =>
      rw [List.append_nil, List.getLast?_append_of_ne_nil _ h.name_ne] at hc
      exact isBlank_of_isPlain (isPlain_of_isSymbolChar (h.name c (List.mem_of_mem_getLast? hc)))
    | cons d tail =>
      rw [List.getLast?_append_of_ne_nil _ (List.cons_ne_nil d tail)] at hc
      exact htail c hc

/-- A name in a raw line is renamed in the content of the line. -/
theorem stripComment_eq {f : String → String} {text name : String} (h : Framed marks name.toList tail)
    (h' : Framed marks (f name).toList tail) (hstart : ∃ c ∈ marks.head?, Text.isBlank c = false)
    (htext : (stripComment text).toList = marks ++ name.toList ++ tail) :
    (stripComment (String.ofList (renameFirst f text.toList))).toList = marks ++ (f name).toList ++ tail := by
  rw [stripComment, String.toList_ofList] at htext
  obtain ⟨before, after, hbefore, hb, ha⟩ := Text.exists_blank_trim (beforeComment text.toList)
  obtain ⟨comment, hline, hcomment⟩ := exists_comment text.toList
  have hwide := h.widen hb ha hcomment
  have hwhole : text.toList = before ++ marks ++ name.toList ++ (tail ++ after ++ comment) := by
    rw [hline, hbefore, htext]
    simp
  have hcut : beforeComment (before ++ marks ++ (f name).toList ++ (tail ++ after ++ comment)) =
      before ++ marks ++ (f name).toList ++ (tail ++ after) := by
    refine hwide.beforeComment_eq (h'.widen hb ha hcomment) ?_
    rw [← hwhole, hbefore, htext]
    simp
  have htail : ∀ c ∈ tail.getLast?, Text.isBlank c = false := by
    intro c hc
    have hlast : c ∈ (Text.trim (beforeComment text.toList)).getLast? := by
      rw [htext, List.getLast?_append, Option.mem_def.1 hc]
      rfl
    exact Text.getLast?_trim hlast
  have htrim := Text.trim_append hb ha (h'.trimmed hstart htail)
  rw [stripComment, String.toList_ofList, String.toList_ofList, hwhole, hwide.renameFirst_eq, hcut]
  simpa using htrim

end Framed

/-! ## Renamed lines -/

/-- The name that an instruction defines or uses. -/
def Instruction.name? (i : Instruction) : Option String :=
  i.label?.or i.symbol?

/-- The instruction under another name. -/
def Instruction.rename (f : String → String) : Instruction → Instruction
  | address symbol => address (if Text.isNumeral symbol.toList then symbol else f symbol)
  | label name => label (f name)
  | compute dest computation jump => compute dest computation jump
  | unrecognized text => unrecognized text

namespace Line

/-- The name on a line, if there is one. -/
def name? (line : Line) : Option String :=
  (line.reading?.bind Except.toOption).bind Instruction.name?

/-- The line with the first name in it renamed. -/
def renameFirst (f : String → String) : Line → Line
  | raw text => raw (String.ofList (HackToolchain.renameFirst f text.toList))
  | located text location => located (String.ofList (HackToolchain.renameFirst f text.toList)) location

/-- The line with its name renamed. A line without a name stays as it is. -/
def rename (f : String → String) (line : Line) : Line :=
  if line.name?.isSome then line.renameFirst f else line

variable {f : String → String} {line : Line}

theorem reading?_eq_ok_iff {i : Instruction} : line.reading? = some (.ok i) ↔ parse line.content = .ok i := by
  rw [reading?]
  split
  next hempty =>
    rw [hempty]
    constructor <;> intro h <;> cases h
  · rw [Option.some.injEq, classify_eq_ok_iff]

theorem content_renameFirst {marks tail : List Char} {name : String} (h : Framed marks name.toList tail)
    (hname : SymbolName (f name).toList) (hstart : ∃ c ∈ marks.head?, Text.isBlank c = false)
    (hcontent : line.content.toList = marks ++ name.toList ++ tail) :
    (line.renameFirst f).content.toList = marks ++ (f name).toList ++ tail := by
  have h' : Framed marks (f name).toList tail := .of_symbolName h.marks hname h.tail
  cases line with
  | raw text => exact h.stripComment_eq h' hstart hcontent
  | located text location =>
    show (String.ofList (HackToolchain.renameFirst f text.toList)).toList = _
    rw [String.toList_ofList, show text.toList = _ from hcontent, h.renameFirst_eq]

theorem framed_address {before after symbol : List Char} (hb : Text.Blank before) (ha : Text.Blank after)
    (hsymbol : SymbolName symbol) : Framed ('@' :: before) symbol after := by
  refine .of_symbolName (List.forall_mem_cons.2 ⟨by decide, fun c hc => ?_⟩) hsymbol fun c hc => ?_
  · exact ⟨not_isSymbolChar_of_isBlank (hb c hc), ne_slash_of_isBlank (hb c hc)⟩
  · exact not_isSymbolChar_of_isBlank (ha c (List.mem_of_mem_head? hc))

theorem reading?_renameFirst_address {symbol : String} (h : line.reading? = some (.ok (.address symbol)))
    (hnum : Text.isNumeral symbol.toList = false) (hname : SymbolName (f symbol).toList) :
    (line.renameFirst f).reading? = some (.ok (.address (f symbol))) := by
  cases parse_eq_iff.1 (reading?_eq_ok_iff.1 h) with
  | address h =>
    obtain ⟨before, after, hcontent, hb, ha, hliteral | hsymbol⟩ := h
    · simp [isNumeral_iff.2 hliteral] at hnum
    · have hrenamed := content_renameFirst (framed_address hb ha hsymbol) hname ⟨'@', rfl, rfl⟩ hcontent
      exact reading?_eq_ok_iff.2 (parse_of_addressText ⟨before, after, hrenamed, hb, ha, .inr hname⟩)

theorem reading?_renameFirst_label {name : String} (h : line.reading? = some (.ok (.label name)))
    (hname : SymbolName (f name).toList) : (line.renameFirst f).reading? = some (.ok (.label (f name))) := by
  cases parse_eq_iff.1 (reading?_eq_ok_iff.1 h) with
  | label h =>
    obtain ⟨hcontent, hsymbol⟩ := h
    have hframed : Framed ['('] name.toList [')'] :=
      .of_symbolName (by simp [isSymbolChar, isSymbolStart]) hsymbol (by simp [isSymbolChar, isSymbolStart])
    have hrenamed := content_renameFirst hframed hname ⟨'(', rfl, rfl⟩ hcontent
    exact reading?_eq_ok_iff.2 (parse_of_labelText ⟨hrenamed, hname⟩)

theorem rename_of_none (h : line.name? = none) : line.rename f = line := by
  simp [rename, h]

theorem rename_of_some {name : String} (h : line.name? = some name) : line.rename f = line.renameFirst f := by
  simp [rename, h]

theorem name?_of_reading? {i : Instruction} (h : line.reading? = some (.ok i)) : line.name? = i.name? := by
  rw [name?, h]
  rfl

/-- **A renamed line is read as the renamed instruction,** and refused as before. -/
theorem reading?_rename (hname : ∀ name ∈ line.name?, SymbolName (f name).toList) :
    (line.rename f).reading? = line.reading?.map (Except.map (Instruction.rename f)) := by
  rcases hr : line.reading? with _ | e | i
  · rw [rename_of_none (by simp [name?, hr]), hr]
    rfl
  · rw [rename_of_none (by simp [name?, hr, Except.toOption]), hr]
    rfl
  have hi := name?_of_reading? hr
  cases i with
  | address symbol =>
    cases hnum : Text.isNumeral symbol.toList with
    | true =>
      rw [rename_of_none (by simp [hi, Instruction.name?, label?, symbol?, hnum]), hr]
      simp [Except.map, Instruction.rename, hnum]
    | false =>
      replace hi : line.name? = some symbol := by simp [hi, Instruction.name?, label?, symbol?, hnum]
      rw [rename_of_some hi, reading?_renameFirst_address hr hnum (hname symbol hi)]
      simp [Except.map, Instruction.rename, hnum]
  | label name =>
    rw [rename_of_some hi, reading?_renameFirst_label hr (hname name hi)]
    rfl
  | compute dest computation jump =>
    rw [rename_of_none hi, hr]
    rfl
  | unrecognized text =>
    rw [rename_of_none hi, hr]
    rfl

end Line

/-! ## Renamed sources -/

/-- The names that occur in a source. -/
def namesOf (lines : List Line) : List String :=
  lines.filterMap Line.name?

/-- A renaming that is good for a source: it keeps the predefined names, renames the others of the
source to names that are not predefined, and no two to the same. -/
structure RenamesWell (f : String → String) (lines : List Line) : Prop where
  injective : ∀ name ∈ namesOf lines, ∀ other ∈ namesOf lines, f name = f other → name = other
  predefined : ∀ name ∈ predefinedNames, f name = name
  fresh : ∀ name ∈ namesOf lines, name ∉ predefinedNames → SymbolName (f name).toList ∧ f name ∉ predefinedNames

namespace RenamesWell

variable {f : String → String} {lines : List Line}

/-- A name of the source, or a predefined one, and what it is renamed to. -/
def Pairs (f : String → String) (lines : List Line) (name name' : String) : Prop :=
  (name ∈ namesOf lines ∨ name ∈ predefinedNames) ∧ f name = name'

theorem predefined_iff (h : RenamesWell f lines) {name : String}
    (hname : name ∈ namesOf lines ∨ name ∈ predefinedNames) : f name ∈ predefinedNames ↔ name ∈ predefinedNames := by
  constructor
  · intro hnew
    by_contra hp
    exact (h.fresh name (hname.resolve_right hp) hp).2 hnew
  · intro hp
    rwa [h.predefined name hp]

theorem eq_of_eq (h : RenamesWell f lines) {a b : String} (ha : a ∈ namesOf lines ∨ a ∈ predefinedNames)
    (hb : b ∈ namesOf lines ∨ b ∈ predefinedNames) (heq : f a = f b) : a = b := by
  have hboth : a ∈ predefinedNames ↔ b ∈ predefinedNames := by rw [← h.predefined_iff ha, ← h.predefined_iff hb, heq]
  by_cases hp : a ∈ predefinedNames
  · rwa [h.predefined a hp, h.predefined b (hboth.1 hp)] at heq
  · exact h.injective a (ha.resolve_right hp) b (hb.resolve_right (mt hboth.2 hp)) heq

theorem nameMap (h : RenamesWell f lines) : NameMap (Pairs f lines) where
  unique := by
    constructor
    · rintro a b c ⟨ha, rfl⟩ ⟨hb, heq⟩
      exact h.eq_of_eq ha hb heq.symm
    · rintro a b c ⟨-, rfl⟩ ⟨-, rfl⟩
      rfl
  predefined name hname := ⟨.inr hname, h.predefined name hname⟩

theorem symbolName (h : RenamesWell f lines) {name : String} (hname : name ∈ namesOf lines) :
    SymbolName (f name).toList := by
  by_cases hp : name ∈ predefinedNames
  · have hall : ∀ name ∈ predefinedNames, isSymbolName name.toList = true := by decide
    rw [h.predefined name hp]
    exact isSymbolName_iff.1 (hall name hp)
  · exact (h.fresh name hname hp).1

theorem mem_namesOf {line : Line} (hline : line ∈ lines) {name : String} (hname : name ∈ line.name?) :
    name ∈ namesOf lines :=
  List.mem_filterMap.2 ⟨line, hline, hname⟩

theorem reading?_rename (h : RenamesWell f lines) {line : Line} (hline : line ∈ lines) :
    (line.rename f).reading? = line.reading?.map (Except.map (Instruction.rename f)) :=
  Line.reading?_rename fun _ hname => h.symbolName (mem_namesOf hline hname)

/-- A line of the source and the renamed one correspond. -/
theorem renamed (h : RenamesWell f lines) {line : Line} (hline : line ∈ lines) :
    line.Renamed (Pairs f lines) (line.rename f) := by
  have hreading := h.reading?_rename hline
  have hpair : ∀ name ∈ line.name?, Pairs f lines name (f name) :=
    fun name hname => ⟨.inl (mem_namesOf hline hname), rfl⟩
  rcases hr : line.reading? with _ | e | i
  · rw [hr] at hreading
    exact .blank hr hreading
  · rw [hr] at hreading
    exact .refused hr hreading (.refl e)
  · rw [hr] at hreading
    refine .read hr hreading ?_
    rw [Line.name?_of_reading? hr] at hpair
    cases i with
    | address symbol =>
      cases hnum : Text.isNumeral symbol.toList with
      | true =>
        rw [Instruction.rename, if_pos hnum]
        exact .literal hnum
      | false =>
        have hname : symbol ∈ Instruction.name? (.address symbol) := by simp [Instruction.name?, label?, symbol?, hnum]
        have hnew := h.symbolName (mem_namesOf hline (Line.name?_of_reading? hr ▸ hname))
        rw [Instruction.rename, if_neg (by simp [hnum])]
        exact .symbol hnum (isNumeral_of_isSymbolName (isSymbolName_iff.2 hnew)) (hpair symbol hname)
    | label name => exact .label (hpair name rfl)
    | compute dest computation jump => exact .compute dest computation jump
    | unrecognized text => exact .unrecognized text text

end RenamesWell

theorem SymbolTable.Renamed.toList_eq {f : String → String} {lines : List Line} {t t' : SymbolTable}
    (h : t.Renamed (RenamesWell.Pairs f lines) t') : t'.toList = t.toList.map fun entry => (f entry.1, entry.2) := by
  have hentries : List.Forall₂ (fun entry entry' => (f entry.1, entry.2) = entry') t.toList t'.toList :=
    h.1.imp fun entry entry' hentry => Prod.ext hentry.1.2 hentry.2
  have hmap : List.Forall₂ Eq (t.toList.map fun entry => (f entry.1, entry.2)) t'.toList :=
    List.forall₂_map_left_iff.2 hentries
  rw [List.forall₂_eq_eq_eq] at hmap
  exact hmap.symm

/-- **Renaming the symbols of a source does not change the binary.** For every source and every
renaming that is good for it, the renamed lines are read as the renamed instructions; and both sources
are assembled into the same words, with the same symbols in the same order at the same addresses, names
apart, or both are refused for the same reason. -/
theorem renamed_source_same_words (f : String → String) (lines : List Line) (h : RenamesWell f lines) (strict : Bool) :
    (∀ line ∈ lines, (line.rename f).reading? = line.reading?.map (Except.map (Instruction.rename f))) ∧
    ((∃ words s s', assembleLines strict lines = .ok words s ∧
      assembleLines strict (lines.map (Line.rename f)) = .ok words s' ∧
      s'.symbols.toList = s.symbols.toList.map fun entry => (f entry.1, entry.2)) ∨
    ∃ e s e' s', assembleLines strict lines = .error e s ∧
      assembleLines strict (lines.map (Line.rename f)) = .error e' s' ∧ e.nameless = e'.nameless) := by
  refine ⟨fun line hline => h.reading?_rename hline, ?_⟩
  have hlines : List.Forall₂ (Line.Renamed (RenamesWell.Pairs f lines)) lines (lines.map (Line.rename f)) :=
    List.forall₂_map_right_iff.2 (List.forall₂_same.2 fun line hline => h.renamed hline)
  have hmatches := assembleLines_renamed h.nameMap hlines strict
  generalize assembleLines strict lines = r at hmatches
  generalize assembleLines strict (lines.map (Line.rename f)) = r' at hmatches
  cases hmatches with
  | ok words hst => exact .inl ⟨words, _, _, rfl, rfl, hst.toList_eq⟩
  | error he hst => exact .inr ⟨_, _, _, _, rfl, rfl, he⟩

/-- A label and a variable change their names. What the comments say and `SP` stay. -/
theorem renamed_source_same_words_swapped :
    let f name := if name = "LOOP" then "x" else if name = "x" then "LOOP" else name
    let lines : List Line := [.raw "(LOOP)//LOOP", .raw " @ x", .raw "M=1 // x", .raw "@SP", .raw "@LOOP // x", .raw "0;JMP"]
    RenamesWell f lines ∧ lines.map (Line.rename f) =
      [.raw "(x)//LOOP", .raw " @ LOOP", .raw "M=1 // x", .raw "@SP", .raw "@x // x", .raw "0;JMP"] ∧
    ∃ words s s', assembleLines true lines = .ok words s ∧
      assembleLines true (lines.map (Line.rename f)) = .ok words s' ∧
      s'.symbols.toList = s.symbols.toList.map fun entry => (f entry.1, entry.2) := by
  intro f lines
  have hnames : namesOf lines = ["LOOP", "x", "SP", "LOOP"] := by decide +kernel
  have hwell : RenamesWell f lines := by
    refine ⟨?_, by decide, ?_⟩
    · rw [hnames]
      decide
    · have hfresh : ∀ name ∈ ["LOOP", "x", "SP", "LOOP"], name ∉ predefinedNames →
          isSymbolName (f name).toList = true ∧ f name ∉ predefinedNames := by decide
      rw [hnames]
      exact fun name hname hp => ⟨isSymbolName_iff.1 (hfresh name hname hp).1, (hfresh name hname hp).2⟩
  refine ⟨hwell, by decide +kernel, ?_⟩
  refine (renamed_source_same_words f lines hwell true).2.resolve_right ?_
  rintro ⟨e, s, e', s', herror, -⟩
  have hassembled : ∃ words s, assembleLines true lines = .ok words s :=
    Assembler.exists_assembled (by decide +kernel) (by decide +kernel)
  obtain ⟨words, s, hok⟩ := hassembled
  rw [hok] at herror
  cases herror

end HackToolchain
