import HackToolchain.Translator
import HackToolchain.Proofs.Text
import HackToolchain.Proofs.Traversal
import Mathlib
/-!
The code of commands as a function of the commands. A command is a push, a pop or an operation
that the translator has code for; the code depends on the name of the unit, on the options and on
the comparisons before it. A translator that succeeds has written exactly that code, with remarks
between the instructions if it was asked for them, and every numeral in it can be read again.
-/

namespace HackToolchain

/-! ## The code of a command -/

namespace Translator

/-- How code reaches a cell of a segment: a constant is no cell, a direct cell has a symbol of its
own, and a based one is found from a register. -/
inductive Access where
  | constant
  | direct (symbol : String)
  | based (register : String)

/-- The symbol of a static cell. -/
def staticName (unit : String) (offset : Nat) : String :=
  unit ++ "." ++ offset.repr

def access (unit : String) (options : Options) (segment : Segment) (offset : Nat) : Access :=
  match segment with
  | .constant => .constant
  | .static => .direct (staticName unit offset)
  | .pointer => .direct (Text.decimal (options.pointerBase + offset))
  | .temp => .direct (Text.decimal (options.tempBase + offset))
  | .argument => .based "ARG"
  | .local => .based "LCL"
  | .this => .based "THIS"
  | .that => .based "THAT"

/-- Points A to a based cell. -/
def pointTo (register : String) (offset : Nat) : List Instruction :=
  [load offset.repr, setD "A", load register, setA "D+M"]

def pushCode (offset : Nat) : Access → List Instruction
  | .constant => [load offset.repr, setD "A"] ++ pushD
  | .direct symbol => [load symbol, setD "M"] ++ pushD
  | .based register => pointTo register offset ++ [setD "M"] ++ pushD

def popCode (offset : Nat) : Access → List Instruction
  | .constant => []
  | .direct symbol => popD ++ [load symbol, setM "D"]
  | .based register => popD ++ [load "R13", setM "D"] ++ pointTo register offset ++
    [setD "A", load "R14", setM "D", load "R13", setD "M", load "R14", setA "M", setM "D"]

/-- A label of the comparison with number `k`. -/
def comparisonLabel (options : Options) (k : Nat) (ending : String) : String :=
  options.labelStart ++ "." ++ k.repr ++ ending

def startLabel (options : Options) (k : Nat) : String :=
  comparisonLabel options k ".start"

def endLabel (options : Options) (k : Nat) : String :=
  comparisonLabel options k ".end"

def comparisonCode (jump isTrue done : String) : List Instruction :=
  popD ++ [load "R13", setM "D"] ++ pointToTop ++ [setD "M", load "R13", setD "D-M"] ++
    ([load isTrue, jumpIf "D" jump] ++ pointToTop ++ [setM "0", load done, jumpIf "0" "JMP", .label isTrue] ++
      pointToTop ++ [setM "-1", .label done])

def operationCode (options : Options) (k : Nat) (operation : Operation) : List Instruction :=
  match operation.binary?, operation.unary?, operation.comparison? with
  | some computation, _, _ => popD ++ [setA "M-1", setM computation]
  | none, some sign, _ => pointToTop ++ [setM (sign ++ "M")]
  | none, none, some jump => comparisonCode jump (startLabel options k) (endLabel options k)
  | none, none, none => []

/-- The label of the loop at the end of a unit. -/
def loopLabel (unit : String) : String :=
  unit ++ "$END"

def loopCode (unit : String) : List Instruction :=
  [.label (loopLabel unit), load (loopLabel unit), jumpIf "0" "JMP"]

end Translator

namespace Command

open Translator

/-- The code of a command that has `k` comparisons before it. -/
def code (unit : String) (options : Options) (k : Nat) : Command → List Instruction
  | push segment offset => pushCode offset (access unit options segment offset)
  | pop segment offset => popCode offset (access unit options segment offset)
  | arithmetic operation => operationCode options k operation
  | unsupported .. | unrecognized _ => []

/-- The comparisons in a command: one or none. -/
def comparisons : Command → Nat
  | arithmetic operation => if operation.comparison?.isSome then 1 else 0
  | push .. | pop .. | unsupported .. | unrecognized _ => 0

/-- The commands that there is code for; the others are skipped. -/
def isTranslated : Command → Bool
  | push .. | pop .. | arithmetic _ => true
  | unsupported .. | unrecognized _ => false

end Command

/-- The command on a line, if there is one that is not skipped. -/
def Line.command? (line : Line) : Option Command :=
  if line.content = "" then none
  else (Command.classify line.content line.location).toOption.filter Command.isTranslated

/-- The commands of a unit. -/
def commands (lines : List Line) : List Command :=
  lines.filterMap Line.command?

namespace Translator

/-- The code of commands that have `k` comparisons before them. -/
def codeFrom (unit : String) (options : Options) (k : Nat) : List Command → List Instruction
  | [] => []
  | c :: cs => c.code unit options k ++ codeFrom unit options (k + c.comparisons) cs

/-- The code of a whole unit. -/
def unitCode (unit : String) (options : Options) (cs : List Command) : List Instruction :=
  codeFrom unit options 0 cs ++ if options.endLoop then loopCode unit else []

def comparisons (cs : List Command) : Nat :=
  (cs.map Command.comparisons).sum

theorem codeFrom_append (unit : String) (options : Options) (k : Nat) (cs ds : List Command) :
    codeFrom unit options k (cs ++ ds) =
      codeFrom unit options k cs ++ codeFrom unit options (k + comparisons cs) ds := by
  induction cs generalizing k with
  | nil => rfl
  | cons c cs ih =>
    rw [List.cons_append, codeFrom, codeFrom, ih, List.append_assoc, comparisons, comparisons, List.map_cons,
      List.sum_cons, Nat.add_assoc]

end Translator

/-- The numerals of an instruction are not too long to be read. -/
def Instruction.Brief : Instruction → Prop
  | address symbol => Text.isNumeral symbol.toList = true → symbol.length ≤ 4300
  | label _ | compute .. | unrecognized _ => True

instance : DecidablePred Instruction.Brief
  | .address symbol => inferInstanceAs (Decidable (Text.isNumeral symbol.toList = true → symbol.length ≤ 4300))
  | .label _ | .compute .. | .unrecognized _ => isTrue trivial

@[simp] theorem Instruction.brief_label (name : String) : (label name).Brief :=
  trivial

@[simp] theorem Instruction.brief_compute (dest : Destination) (computation jump : String) :
    (compute dest computation jump).Brief :=
  trivial

namespace Translator

/-! ## What the steps of a translator write -/

/-- The translator has written the code and counted `n` comparisons; nothing else has changed that
later code depends on. -/
structure Wrote (t : Translator) (code : List Instruction) (n : Nat) (t' : Translator) : Prop where
  buffer : t'.buffer.toList = t.buffer.toList ++ code.map Instruction.render
  labels : t'.labels = t.labels + n
  frame : t'.name = t.name ∧ t'.options = t.options ∧ t'.finalized = t.finalized
  brief : ∀ i ∈ code, i.Brief

variable {t t' t'' : Translator} {code code' : List Instruction} {m n : Nat} {u : Unit}

theorem Wrote.append (h : Wrote t code m t') (h' : Wrote t' code' n t'') : Wrote t (code ++ code') (m + n) t'' where
  buffer := by rw [h'.buffer, h.buffer, List.map_append, List.append_assoc]
  labels := by rw [h'.labels, h.labels, Nat.add_assoc]
  frame := ⟨h'.frame.1.trans h.frame.1, h'.frame.2.1.trans h.frame.2.1, h'.frame.2.2.trans h.frame.2.2⟩
  brief := List.forall_mem_append.2 ⟨h.brief, h'.brief⟩

theorem wrote_of_emit (hb : ∀ i ∈ code, i.Brief) (h : emit code t = .ok u t') : Wrote t code 0 t' := by
  cases h
  exact ⟨by simp, rfl, ⟨rfl, rfl, rfl⟩, hb⟩

theorem numeral_eq_ok {k : Int} {digits : String} (h : numeral k t = .ok digits t') :
    digits = Text.decimal k ∧ t' = t ∧ (load digits).Brief := by
  unfold numeral Text.writeNumeral at h
  by_cases hw : Text.digitLimit < k.natAbs.repr.length
  · rw [if_pos hw] at h
    cases h
  · rw [if_neg hw] at h
    cases h
    refine ⟨rfl, rfl, fun hnum => ?_⟩
    cases k with
    | ofNat k => exact Nat.not_lt.1 hw
    | negSucc k =>
      have hminus : '-' ∈ (Text.decimal (.negSucc k)).toList := by simp [Text.decimal]
      rw [Text.isNumeral_eq_false_of_mem hminus rfl] at hnum
      cases hnum

theorem load_brief_of_mem {symbol : String} {c : Char} (h : c ∈ symbol.toList) (hc : c.isDigit = false) :
    (load symbol).Brief := by
  intro hnum
  rw [Text.isNumeral_eq_false_of_mem h hc] at hnum
  cases hnum

theorem brief_load_compute {symbol computation jump : String} {dest : Destination} (h : (load symbol).Brief) :
    ∀ i ∈ [load symbol, .compute dest computation jump], i.Brief := by
  simpa using h

theorem directAddress_eq_ok {segment : Segment} {offset : Nat} {symbol : String}
    (hd : segment.isDirect = true) (h : directAddress segment offset t = .ok symbol t') :
    access t.name t.options segment offset = .direct symbol ∧ t' = t ∧ (load symbol).Brief := by
  cases segment with
  | pointer | temp =>
    obtain ⟨rfl, rfl, hb⟩ := numeral_eq_ok h
    exact ⟨rfl, rfl, hb⟩
  | static =>
    obtain ⟨digits, t₁, hdigits, hname⟩ := bind_eq_ok.1 h
    obtain ⟨rfl, rfl, -⟩ := numeral_eq_ok hdigits
    cases hname
    exact ⟨rfl, rfl, load_brief_of_mem (c := '.') (by simp) rfl⟩
  | _ => cases hd

theorem wrote_of_pointToBased {segment : Segment} {offset : Nat} (h : pointToBased segment offset t = .ok u t') :
    ∃ register, access t.name t.options segment offset = .based register ∧
      Wrote t (pointTo register offset) 0 t' := by
  obtain ⟨digits, t₁, hdigits, hpoint⟩ := bind_eq_ok.1 h
  obtain ⟨rfl, rfl, hb⟩ := numeral_eq_ok hdigits
  have hbrief : ∀ register, (load register).Brief → ∀ i ∈ pointTo register offset, i.Brief := by
    intro register hr
    simpa [pointTo, setD, setA] using ⟨hb, hr⟩
  cases segment with
  | argument | «local» | this | that => exact ⟨_, rfl, wrote_of_emit (hbrief _ (by decide)) hpoint⟩
  | _ => cases hpoint

theorem wrote_of_loadConstant {offset : Nat} (h : loadConstant offset t = .ok u t') :
    Wrote t [load offset.repr, setD "A"] 0 t' := by
  unfold loadConstant at h
  rw [if_neg (by omega)] at h
  obtain ⟨digits, t₁, hdigits, hload⟩ := bind_eq_ok.1 h
  obtain ⟨rfl, rfl, hb⟩ := numeral_eq_ok hdigits
  exact wrote_of_emit (brief_load_compute hb) hload

theorem wrote_of_push {segment : Segment} {offset : Nat} (h : push segment offset t = .ok u t') :
    Wrote t (pushCode offset (access t.name t.options segment offset)) 0 t' := by
  have hpushD : ∀ i ∈ pushD, i.Brief := by decide
  unfold push at h
  by_cases hc : segment = .constant
  · subst hc
    obtain ⟨_, t₁, hload, hpush⟩ := bind_eq_ok.1 h
    exact (wrote_of_loadConstant hload).append (wrote_of_emit hpushD hpush)
  · rw [if_neg hc] at h
    by_cases hd : segment.isDirect = true
    · rw [if_pos hd] at h
      obtain ⟨_, t₁, hload, hpush⟩ := bind_eq_ok.1 h
      obtain ⟨symbol, t₂, hsymbol, hvalue⟩ := bind_eq_ok.1 hload
      obtain ⟨haccess, rfl, hb⟩ := directAddress_eq_ok hd hsymbol
      rw [haccess]
      exact (wrote_of_emit (brief_load_compute hb) hvalue).append (wrote_of_emit hpushD hpush)
    · rw [if_neg hd] at h
      obtain ⟨_, t₁, hpoint, hrest⟩ := bind_eq_ok.1 h
      obtain ⟨_, t₂, hload, hpush⟩ := bind_eq_ok.1 hrest
      obtain ⟨register, haccess, hw⟩ := wrote_of_pointToBased hpoint
      rw [haccess]
      exact (hw.append (wrote_of_emit (by decide) hload)).append (wrote_of_emit hpushD hpush)

theorem wrote_of_pop {segment : Segment} {offset : Nat} (h : pop segment offset t = .ok u t') :
    Wrote t (popCode offset (access t.name t.options segment offset)) 0 t' := by
  obtain ⟨_, t₁, hpop, hstore⟩ := bind_eq_ok.1 h
  have hw : Wrote t popD 0 t₁ := wrote_of_emit (by decide) hpop
  rw [← hw.frame.1, ← hw.frame.2.1]
  by_cases hd : segment.isDirect = true
  · rw [if_pos hd] at hstore
    obtain ⟨symbol, t₂, hsymbol, hvalue⟩ := bind_eq_ok.1 hstore
    obtain ⟨haccess, rfl, hb⟩ := directAddress_eq_ok hd hsymbol
    rw [haccess]
    exact hw.append (wrote_of_emit (brief_load_compute hb) hvalue)
  · rw [if_neg hd] at hstore
    obtain ⟨_, t₂, hspill, hrest⟩ := bind_eq_ok.1 hstore
    obtain ⟨_, t₃, hpoint, hvalue⟩ := bind_eq_ok.1 hrest
    have hw₂ := wrote_of_emit (by decide) hspill
    obtain ⟨register, haccess, hw₃⟩ := wrote_of_pointToBased hpoint
    rw [hw₂.frame.1, hw₂.frame.2.1] at haccess
    rw [haccess]
    exact ((hw.append hw₂).append hw₃).append (wrote_of_emit (by decide) hvalue)

theorem wrote_of_comparison {operation : Operation} {jump : String} (hj : operation.comparison? = some jump)
    (h : arithmetic operation t = .ok u t') :
    Wrote t (comparisonCode jump (startLabel t.options t.labels) (endLabel t.options t.labels)) 1 t' := by
  have heq : arithmetic operation = compare operation := by
    cases operation with
    | eq | lt | gt => rfl
    | _ => cases hj
  rw [heq, compare, hj] at h
  obtain ⟨_, t₁, hdifference, hrest⟩ := bind_eq_ok.1 h
  have hw := wrote_of_emit (by decide) hdifference
  obtain ⟨label, t₂, hlabel, hbranch⟩ := bind_eq_ok.1 hrest
  cases hlabel
  have hcount : Wrote t₁ [] 1 { t₁ with labels := t₁.labels + 1 } :=
    ⟨(List.append_nil _).symm, rfl, ⟨rfl, rfl, rfl⟩, List.forall_mem_nil _⟩
  have hlabels : t₁.labels = t.labels := hw.labels
  rw [← hlabels, ← hw.frame.2.1]
  refine hw.append (hcount.append (wrote_of_emit ?_ hbranch))
  have hlabel : ∀ text, (load (t₁.options.labelStart ++ "." ++ t₁.labels.repr ++ text)).Brief :=
    fun _ => load_brief_of_mem (c := '.') (by simp) rfl
  have hsp : (load "SP").Brief := by decide
  simp [pointToTop, setA, setM, jumpIf, hlabel, hsp]

theorem wrote_of_arithmetic {operation : Operation} (h : arithmetic operation t = .ok u t') :
    Wrote t ((Command.arithmetic operation).code t.name t.options t.labels)
      (Command.arithmetic operation).comparisons t' := by
  have hsp : (load "SP").Brief := by decide
  cases operation with
  | add | sub | and | or | neg | not =>
    refine wrote_of_emit ?_ h
    simp [Command.code, operationCode, Operation.binary?, Operation.unary?, popD, pointToTop, setA, setD, setM, hsp]
  | eq | lt | gt => exact wrote_of_comparison rfl h

/-- Skipping a command writes nothing. -/
theorem wrote_of_warn {text : String} (h : warn text t = .ok u t') : Wrote t [] 0 t' := by
  cases h
  exact ⟨(List.append_nil _).symm, rfl, ⟨rfl, rfl, rfl⟩, List.forall_mem_nil _⟩

theorem wrote_of_skipUnrecognized {text : String} {location : Option Location}
    (h : skipUnrecognized text location t = .ok u t') : Wrote t [] 0 t' := by
  obtain ⟨_, _, hget, hskip⟩ := bind_eq_ok.1 h
  cases hget
  by_cases hs : t.options.strict = true
  · rw [if_pos hs] at hskip
    by_cases hl : (Text.words text.toList).length == 1
    · rw [if_pos hl] at hskip
      obtain ⟨_, _, _, hthrow⟩ := bind_eq_ok.1 hskip
      cases hthrow
    · rw [if_neg hl] at hskip
      cases hskip
  · rw [if_neg hs] at hskip
    exact wrote_of_warn hskip

/-- A command that is accepted writes its code. -/
theorem wrote_of_translate {text : String} {location : Option Location} {c : Command}
    (h : translate text location c t = .ok u t') :
    Wrote t (c.code t.name t.options t.labels) c.comparisons t' := by
  cases c with
  | push segment offset => exact wrote_of_push h
  | pop segment offset => exact wrote_of_pop h
  | arithmetic operation => exact wrote_of_arithmetic h
  | unsupported flow text => exact wrote_of_warn h
  | unrecognized text => exact wrote_of_skipUnrecognized h

end Translator

/-! ## Lines that spell code -/

/-- The lines are the instructions as they are written, with remarks between them. -/
inductive Spells : List String → List Instruction → Prop
  | nil : Spells [] []
  | remark (text : String) {out : List String} {code : List Instruction} :
    Spells out code → Spells (("// " ++ text) :: out) code
  | instruction (i : Instruction) {out : List String} {code : List Instruction} :
    Spells out code → Spells (i.render :: out) (i :: code)

namespace Spells

theorem append {out out' : List String} {code code' : List Instruction} (h : Spells out code)
    (h' : Spells out' code') : Spells (out ++ out') (code ++ code') := by
  induction h with
  | nil => exact h'
  | remark text _ ih => exact .remark text ih
  | instruction i _ ih => exact .instruction i ih

theorem map_render (code : List Instruction) : Spells (code.map Instruction.render) code := by
  induction code with
  | nil => exact .nil
  | cons i code ih => exact .instruction i ih

end Spells

namespace Translator

variable {t t' : Translator} {line : Line} {lines : List Line} {out : List String}

/-- The lines have been translated into lines that spell the code of their commands. -/
structure Spelled (t : Translator) (lines : List Line) (out : List String) (t' : Translator) : Prop where
  spells : Spells out (codeFrom t.name t.options t.labels (commands lines))
  labels : t'.labels = t.labels + comparisons (commands lines)
  frame : t'.name = t.name ∧ t'.options = t.options ∧ t'.finalized = t.finalized
  buffer : t'.buffer = #[]
  brief : ∀ i ∈ codeFrom t.name t.options t.labels (commands lines), i.Brief
  origin : ∀ l ∈ out, (∃ line ∈ lines, l = "// " ++ line.content) ∨
    ∃ i ∈ codeFrom t.name t.options t.labels (commands lines), l = i.render

theorem Spelled.append {before after : List Line} {out' : List String} {t'' : Translator}
    (h : Spelled t before out t') (h' : Spelled t' after out' t'') :
    Spelled t (before ++ after) (out ++ out') t'' := by
  have hcommands : commands (before ++ after) = commands before ++ commands after := List.filterMap_append
  have hcode : codeFrom t.name t.options t.labels (commands (before ++ after)) =
      codeFrom t.name t.options t.labels (commands before) ++
        codeFrom t'.name t'.options t'.labels (commands after) := by
    rw [hcommands, codeFrom_append, h.labels, h.frame.1, h.frame.2.1]
  refine ⟨?_, ?_, ?_, h'.buffer, ?_, ?_⟩
  · rw [hcode]
    exact h.spells.append h'.spells
  · rw [h'.labels, h.labels, hcommands, comparisons, comparisons, comparisons, List.map_append, List.sum_append,
      Nat.add_assoc]
  · exact ⟨h'.frame.1.trans h.frame.1, h'.frame.2.1.trans h.frame.2.1, h'.frame.2.2.trans h.frame.2.2⟩
  · rw [hcode]
    exact List.forall_mem_append.2 ⟨h.brief, h'.brief⟩
  · rw [hcode]
    refine List.forall_mem_append.2 ⟨fun l hl => (h.origin l hl).imp ?_ ?_, fun l hl => (h'.origin l hl).imp ?_ ?_⟩
    · exact fun ⟨line, hline, htext⟩ => ⟨line, List.mem_append_left _ hline, htext⟩
    · exact fun ⟨i, hi, htext⟩ => ⟨i, List.mem_append_left _ hi, htext⟩
    · exact fun ⟨line, hline, htext⟩ => ⟨line, List.mem_append_right _ hline, htext⟩
    · exact fun ⟨i, hi, htext⟩ => ⟨i, List.mem_append_right _ hi, htext⟩

/-- The remark that precedes the code of a command, if remarks are asked for. -/
def remarks (options : Options) (text : String) : List String :=
  if options.comments then ["// " ++ text] else []

theorem Spells.remarks (options : Options) (text : String) : Spells (remarks options text) [] := by
  unfold Translator.remarks
  split
  · exact .remark text .nil
  · exact .nil

theorem eq_of_mem_remarks {options : Options} {text l : String} (h : l ∈ remarks options text) : l = "// " ++ text := by
  unfold remarks at h
  split at h
  · exact List.mem_singleton.1 h
  · cases h

theorem comment_eq (text : String) (t : Translator) :
    comment text t = .ok () { t with buffer := t.buffer ++ remarks t.options text } := by
  obtain ⟨name, ⟨comments, strict, endLoop, labelStart, tempBase, pointerBase⟩, buffer, labels, finalized, warnings⟩ := t
  cases comments with
  | false =>
    show EStateM.Result.ok () _ = _
    simp [remarks]
  | true => rfl

/-- Skipped commands can be dropped, since they have no code. -/
theorem codeFrom_commands {c : Command} (hc : line.content ≠ "")
    (h : Command.classify line.content line.location = .ok c) (unit : String) (options : Options) (k : Nat) :
    codeFrom unit options k (commands [line]) = c.code unit options k ∧
      comparisons (commands [line]) = c.comparisons := by
  have hcommand : line.command? = (some c).filter Command.isTranslated := by
    rw [Line.command?, if_neg hc, h]
    rfl
  cases c with
  | push | pop | arithmetic =>
    rw [commands, List.filterMap_cons_some hcommand, List.filterMap_nil]
    exact ⟨List.append_nil _, rfl⟩
  | unsupported | unrecognized =>
    rw [commands, List.filterMap_cons_none hcommand, List.filterMap_nil]
    exact ⟨rfl, rfl⟩

/-- What becomes of a line that is accepted. -/
theorem spelled_of_translateLine (hb : t.buffer = #[]) (hf : t.finalized = false)
    (h : translateLine line t = .ok out t') : Spelled t [line] out t' := by
  obtain ⟨_, _, hget, hline⟩ := bind_eq_ok.1 h
  cases hget
  rw [if_neg (by simp [hf])] at hline
  by_cases hc : line.content = ""
  · rw [if_pos (by simpa using hc)] at hline
    cases hline
    have hcommands : commands [line] = [] := by
      rw [commands, List.filterMap_cons_none (by rw [Line.command?, if_pos hc]), List.filterMap_nil]
    refine ⟨?_, ?_, ⟨rfl, rfl, rfl⟩, hb, ?_, List.forall_mem_nil _⟩
    · rw [hcommands]; exact .nil
    · rw [hcommands]; rfl
    · rw [hcommands]; exact List.forall_mem_nil _
  · rw [if_neg (by simpa using hc)] at hline
    obtain ⟨c, t₁, hclassify, hrest⟩ := bind_eq_ok.1 hline
    obtain ⟨_, t₂, hcomment, hrest'⟩ := bind_eq_ok.1 hrest
    obtain ⟨_, t₃, htranslate, hflush⟩ := bind_eq_ok.1 hrest'
    have hclassified : Command.classify line.content line.location = .ok c ∧ t₁ = t := by
      cases hr : Command.classify line.content line.location with
      | ok c' => rw [hr] at hclassify; cases hclassify; exact ⟨rfl, rfl⟩
      | error e => rw [hr] at hclassify; cases hclassify
    obtain ⟨hclassified, rfl⟩ := hclassified
    rw [comment_eq] at hcomment
    cases hcomment
    cases hflush
    have hw := wrote_of_translate htranslate
    obtain ⟨hcode, hcomparisons⟩ := codeFrom_commands hc hclassified t₁.name t₁.options t₁.labels
    have hout : t₃.buffer.toList = remarks t₁.options line.content ++
        (c.code t₁.name t₁.options t₁.labels).map Instruction.render := by
      simp [hw.buffer, hb]
    rw [hout]
    refine ⟨?_, hw.labels.trans (by rw [hcomparisons]), hw.frame, rfl, hcode ▸ hw.brief, ?_⟩
    · rw [hcode]
      simpa using (Spells.remarks t₁.options line.content).append (.map_render _)
    · rw [hcode]
      refine List.forall_mem_append.2 ⟨?_, ?_⟩
      · intro l hl
        exact .inl ⟨line, List.mem_singleton_self line, eq_of_mem_remarks hl⟩
      · intro l hl
        obtain ⟨i, hi, rfl⟩ := List.mem_map.1 hl
        exact .inr ⟨i, hi, rfl⟩

/-- What becomes of lines that are accepted. -/
theorem spelled_of_traverses {outs : List (List String)} (hb : t.buffer = #[]) (hf : t.finalized = false)
    (h : Traverses translateLine t lines outs t') : Spelled t lines outs.flatten t' := by
  induction h with
  | nil t => exact ⟨.nil, rfl, ⟨rfl, rfl, rfl⟩, hb, List.forall_mem_nil _, List.forall_mem_nil _⟩
  | cons hx _ ih =>
    have h := spelled_of_translateLine hb hf hx
    exact h.append (ih h.buffer (h.frame.2.2.trans hf))

theorem finalize_eq (hb : t.buffer = #[]) :
    finalize t = .ok ((if t.options.endLoop then loopCode t.name else []).map Instruction.render)
      { t with finalized := true } := by
  obtain ⟨name, ⟨comments, strict, endLoop, labelStart, tempBase, pointerBase⟩, buffer, labels, finalized, warnings⟩ := t
  subst hb
  cases endLoop <;> rfl

theorem loopCode_brief (unit : String) : ∀ i ∈ loopCode unit, i.Brief := by
  have hload : (load (loopLabel unit)).Brief := load_brief_of_mem (c := '$') (by simp [loopLabel]) rfl
  simpa [loopCode, jumpIf] using hload

/-- A unit is accepted if all its lines are. -/
theorem translateLines_eq_ok {name : String} {options : Options} {out : List String} :
    translateLines name options lines = .ok out t ↔
      ∃ outs t₁, Traverses translateLine (start name options) lines outs t₁ ∧
        out = outs.flatten ++
          (if options.endLoop then loopCode (start name options).name else []).map Instruction.render ∧
        t = { t₁ with finalized := true } := by
  have hfinalize : ∀ {outs t₁}, Traverses translateLine (start name options) lines outs t₁ → finalize t₁ =
      .ok ((if options.endLoop then loopCode (start name options).name else []).map Instruction.render)
        { t₁ with finalized := true } := by
    intro outs t₁ houts
    have hs := spelled_of_traverses rfl rfl houts
    rw [finalize_eq hs.buffer, hs.frame.1, hs.frame.2.1]
    rfl
  constructor
  · intro h
    obtain ⟨outs, t₁, houts, hrest⟩ := bind_eq_ok.1 h
    obtain ⟨tail, t₂, htail, hout⟩ := bind_eq_ok.1 hrest
    rw [hfinalize (mapM_eq_ok.1 houts)] at htail
    cases htail
    cases hout
    exact ⟨outs, t₁, mapM_eq_ok.1 houts, rfl, rfl⟩
  · intro h
    obtain ⟨outs, t₁, houts, rfl, rfl⟩ := h
    exact bind_eq_ok.2 ⟨outs, t₁, mapM_eq_ok.2 houts, bind_eq_ok.2 ⟨_, _, hfinalize houts, rfl⟩⟩

/-- A unit is refused if one of its lines is. -/
theorem translateLines_eq_error {name : String} {options : Options} {e : Failure} :
    translateLines name options lines = .error e t ↔ Fails translateLine (start name options) lines e t := by
  constructor
  · intro h
    rcases bind_eq_error.1 h with hlines | ⟨outs, t₁, houts, hrest⟩
    · exact mapM_eq_error.1 hlines
    · rcases bind_eq_error.1 hrest with htail | ⟨tail, t₂, -, hout⟩
      · rw [finalize_eq (spelled_of_traverses rfl rfl (mapM_eq_ok.1 houts)).buffer] at htail
        cases htail
      · cases hout
  · intro h
    exact bind_eq_error.2 (.inl (mapM_eq_error.2 h))

/-- The lines of a unit, and those of the loop at its end if there is one. -/
theorem spelled_of_translateLines {name : String} {options : Options} {out : List String}
    (h : translateLines name options lines = .ok out t) :
    ∃ outs t₁, Spelled (start name options) lines outs t₁ ∧
      out = outs ++ (if options.endLoop then loopCode (start name options).name else []).map Instruction.render := by
  obtain ⟨outs, t₁, houts, hout, -⟩ := translateLines_eq_ok.1 h
  exact ⟨outs.flatten, t₁, spelled_of_traverses rfl rfl houts, hout⟩

/-- **What is translated is the code of the commands,** and none of its numerals is too long. -/
theorem spells_of_translateLines {name : String} {options : Options} {out : List String}
    (h : translateLines name options lines = .ok out t) :
    Spells out (unitCode (start name options).name options (commands lines)) ∧
      ∀ i ∈ unitCode (start name options).name options (commands lines), i.Brief := by
  obtain ⟨outs, t₁, hs, rfl⟩ := spelled_of_translateLines h
  refine ⟨hs.spells.append (.map_render _), List.forall_mem_append.2 ⟨hs.brief, ?_⟩⟩
  split
  · exact loopCode_brief _
  · exact List.forall_mem_nil _

end Translator

end HackToolchain
