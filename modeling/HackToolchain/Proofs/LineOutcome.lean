import HackToolchain.Proofs.CommandGrammar
import HackToolchain.Proofs.GeneratedCode
import Mathlib
/-!
What a translator does with one line, in full: what it hands out, what it keeps, and what it has
written when it fails. All of it follows from the reading of the line, from the options and from how
wide the address in the command is (`Outcome`). The buffer is handed out with the first line that is
accepted, so what a refused line has left there comes out with a later one.
-/

namespace HackToolchain

namespace Text

theorem ofDigits_lt {digits : List Nat} (h : ∀ d ∈ digits, d < 10) : ofDigits digits < 10 ^ digits.length := by
  induction digits using List.reverseRecOn with
  | nil => simp [ofDigits]
  | append_singleton digits d ih =>
    have hlt := ih fun x hx => h x (List.mem_append_left _ hx)
    have hd := h d (by simp)
    rw [ofDigits_concat, List.length_append, List.length_singleton, Nat.pow_succ]
    omega

theorem numeralValue_lt {cs : List Char} (h : isNumeral cs = true) : numeralValue cs < 10 ^ cs.length := by
  rw [isNumeral, Bool.and_eq_true, List.all_eq_true] at h
  have hlt : ofDigits _ < _ := ofDigits_lt fun d (hd : d ∈ cs.map fun c => c.toNat - '0'.toNat) => by
    obtain ⟨c, hc, rfl⟩ := List.mem_map.1 hd
    have hdigit := h.2 c hc
    simp only [Char.isDigit, Bool.and_eq_true, decide_eq_true_eq, UInt32.le_iff_toNat_le] at hdigit
    have hle : c.toNat ≤ 57 := hdigit.2
    show c.toNat - 48 < 10
    omega
  rwa [List.length_map] at hlt

/-- A number that was read can be written. -/
theorem length_repr_of_readNumeral {cs : List Char} {n : Nat} (h : isNumeral cs = true)
    (hread : readNumeral cs = .ok n) : n.repr.length ≤ digitLimit := by
  rw [readNumeral] at hread
  split at hread
  · cases hread
  next hlength =>
  cases hread
  refine Nat.repr_length _ _ (by decide) ((numeralValue_lt h).trans_le ?_)
  exact Nat.pow_le_pow_right (by decide) (Nat.not_lt.1 hlength)

/-- Blanks have no case. -/
theorem lowerChar_of_isBlank {c : Char} (h : isBlank c = true) : lowerChar c = [c] := by
  have hblanks : ∀ n ∈ List.range' 0x09 5 ++ List.range' 0x1C 5 ++ [0x85, 0xA0, 0x1680] ++ List.range' 0x2000 11 ++
      [0x2028, 0x2029, 0x202F, 0x205F, 0x3000], lowerChar (Char.ofNat n) = [Char.ofNat n] := by
    decide +kernel
  have hmem := hblanks c.toNat (by
    simp only [isBlank, Bool.or_eq_true, Bool.and_eq_true, decide_eq_true_eq, beq_iff_eq] at h
    simp only [List.mem_append, List.mem_range'_1, List.mem_cons, List.not_mem_nil, or_false]
    omega)
  rwa [Char.ofNat_toNat] at hmem

theorem mem_lowercaseFrom_of_isBlank {c : Char} (h : isBlank c = true) {cs : List Char} (hc : c ∈ cs)
    (before : List Char) : c ∈ lowercaseFrom before cs := by
  induction cs generalizing before with
  | nil => cases hc
  | cons d cs ih =>
    rw [lowercaseFrom, List.mem_append]
    rcases List.mem_cons.1 hc with rfl | hc
    · left
      have hsigma : (c.toNat == 0x3A3) = false := by
        simp only [isBlank, Bool.or_eq_true, Bool.and_eq_true, decide_eq_true_eq, beq_iff_eq] at h
        simp only [beq_eq_false_iff_ne]
        omega
      rw [hsigma, lowerChar_of_isBlank h]
      exact List.mem_singleton_self c
    · exact .inr (ih hc _)

end Text

/-! ## What the grammar makes sure of -/

/-- A single word that begins no command is not the name of an operation either, whether or not there
are blanks around it. -/
theorem Operation.parse_of_unrecognized {text other : String} {location : Option Location}
    (h : Command.classify text location = .ok (.unrecognized other)) (hone : (Text.words text.toList).length = 1) :
    Operation.parse text location = .error (Cause.at (.unknownOperation text) location) := by
  obtain ⟨first, hwords⟩ := List.length_eq_one_iff.1 hone
  rw [parse]
  split
  next operation hword =>
    have hkey : Text.lowercase text.toList = operation.word.toList := by
      rw [← ofWord?_eq_some_iff.1 hword, String.toList_ofList]
    -- The names of operations have no blanks in them, so there are none in the text.
    have hplain : ∀ c ∈ text.toList, Text.isBlank c = false := by
      intro c hc
      by_contra hblank
      have hmem : c ∈ Text.lowercase text.toList :=
        Text.mem_lowercaseFrom_of_isBlank (Bool.eq_true_of_not_eq_false hblank) hc []
      have hall : operation.word.toList.all (!Text.isBlank ·) = true := by
        cases operation <;> decide
      rw [hkey] at hmem
      exact hblank (by simpa using List.all_eq_true.1 hall c hmem)
    have hne : text.toList ≠ [] := by
      intro hnil
      rw [hnil] at hwords
      cases hwords
    have hself : Text.words text.toList = [text.toList] := by
      refine Text.words_eq_iff.2 ?_
      simpa using Text.Spaced.cons_word hne hplain (by simp) (.nil (List.forall_mem_nil _))
    cases (Command.classify_eq_iff hself).1 h with
    | unrecognized hunknown => exact absurd (ofWord?_eq_some_iff.1 hword) (hunknown.2.1 operation)
  next => rfl

namespace Command

variable {text : String} {location : Option Location}

/-- What the grammar makes sure of: the offset can be written again, and nothing is popped into a
constant. -/
def Sound : Command → Prop
  | push _ offset => offset.repr.length ≤ Text.digitLimit
  | pop segment offset => offset.repr.length ≤ Text.digitLimit ∧ segment ≠ .constant
  | arithmetic _ | unsupported .. | unrecognized _ => True

theorem Denotes.length_repr {digits : List Char} {n : Nat} (h : Denotes digits n) : n.repr.length ≤ Text.digitLimit :=
  Text.length_repr_of_readNumeral (Instruction.isNumeral_iff.2 h.1) h.readNumeral_eq

theorem sound_of_classify {c : Command} (h : classify text location = .ok c) : c.Sound := by
  obtain ⟨first, operands, hread⟩ := exists_reading h
  cases hread with
  | push _ _ hn => exact hn.length_repr
  | pop _ _ hn hconstant => exact ⟨hn.length_repr, hconstant⟩
  | arithmetic | unsupported | unrecognized => trivial

end Command

/-- What the grammar makes of a line, if there is anything on it. -/
def Line.classified? (line : Line) : Option (Except Failure Command) :=
  if line.content = "" then none else some (Command.classify line.content line.location)

theorem Line.classify_of_classified? {line : Line} {r : Except Failure Command} (h : line.classified? = some r) :
    line.content ≠ "" ∧ Command.classify line.content line.location = r := by
  rw [classified?] at h
  split at h
  · cases h
  next hcontent => exact ⟨hcontent, Option.some.inj h⟩

/-! ## Addresses that are too wide -/

/-- The address of the first cell of a segment, for those that the options place. -/
def Segment.fixedBase? (options : Translator.Options) : Segment → Option Int
  | pointer => some options.pointerBase
  | temp => some options.tempBase
  | argument | «local» | static | constant | this | that => none

/-- The address of a cell has more digits than can be written. -/
def Translator.TooWide (options : Options) (segment : Segment) (offset : Nat) : Prop :=
  ∃ base, segment.fixedBase? options = some base ∧ Text.digitLimit < (base + offset).natAbs.repr.length

namespace Command

/-- The command needs an address that has more digits than can be written. -/
def TooWide (options : Translator.Options) : Command → Prop
  | push segment offset | pop segment offset => Translator.TooWide options segment offset
  | arithmetic _ | unsupported .. | unrecognized _ => False

/-- The part of the code of a command that comes before the address in it. -/
def begun : Command → List Instruction
  | pop .. => Translator.popD
  | push .. | arithmetic _ | unsupported .. | unrecognized _ => []

end Command

/-! ## The code of a command, step by step -/

theorem appendList_assoc {α : Type} (xs : Array α) (ys zs : List α) : xs ++ ys ++ zs = xs ++ (ys ++ zs) :=
  Array.ext' (by simp)

namespace Translator

variable {t : Translator} {segment : Segment} {offset : Nat}

/-- The translator with code behind what it has in its buffer, and `n` more comparisons counted. -/
def extend (t : Translator) (code : List Instruction) (n : Nat) : Translator :=
  { t with buffer := t.buffer ++ code.map Instruction.render, labels := t.labels + n }

theorem extend_extend (t : Translator) (code more : List Instruction) (m n : Nat) :
    (t.extend code m).extend more n = t.extend (code ++ more) (m + n) := by
  simp only [extend, List.map_append, appendList_assoc, Nat.add_assoc]

theorem emit_eq (t : Translator) (code : List Instruction) : emit code t = .ok () (t.extend code 0) :=
  rfl

theorem emit_extend (t : Translator) (code more : List Instruction) (n : Nat) :
    emit more (t.extend code n) = .ok () (t.extend (code ++ more) n) :=
  congrArg (EStateM.Result.ok ()) (extend_extend t code more n 0)

theorem numeral_of_short {k : Int} (h : k.natAbs.repr.length ≤ Text.digitLimit) (t : Translator) :
    numeral k t = .ok (Text.decimal k) t := by
  have hwrite : Text.writeNumeral k = .ok (Text.decimal k) := if_neg (Nat.not_lt.2 h)
  simp only [numeral, hwrite]
  rfl

theorem numeral_of_long {k : Int} (h : Text.digitLimit < k.natAbs.repr.length) (t : Translator) :
    numeral k t = .error (.numeral .tooWide) t := by
  have hwrite : Text.writeNumeral k = .error .tooWide := if_pos h
  simp only [numeral, hwrite]
  rfl

theorem numeral_offset (h : offset.repr.length ≤ Text.digitLimit) (t : Translator) :
    numeral (offset : Int) t = .ok offset.repr t :=
  numeral_of_short (by simpa only [Int.natAbs_natCast] using h) t

theorem directAddress_of_fits (hdirect : segment.isDirect = true) (hoffset : offset.repr.length ≤ Text.digitLimit)
    (hfits : ¬ TooWide t.options segment offset) : ∃ symbol, access t.name t.options segment offset = .direct symbol ∧
      directAddress segment offset t = .ok symbol t := by
  have hshort : ∀ base, segment.fixedBase? t.options = some base →
      (base + (offset : Int)).natAbs.repr.length ≤ Text.digitLimit := by
    intro base hbase
    exact Nat.not_lt.1 fun hlong => hfits ⟨base, hbase, hlong⟩
  cases segment with
  | pointer | temp => exact ⟨_, rfl, numeral_of_short (hshort _ rfl) t⟩
  | static => exact ⟨_, rfl, bind_eq_ok.2 ⟨_, _, numeral_offset hoffset t, rfl⟩⟩
  | argument | «local» | constant | this | that => cases hdirect

theorem directAddress_of_tooWide (h : TooWide t.options segment offset) :
    segment.isDirect = true ∧ directAddress segment offset t = .error (.numeral .tooWide) t := by
  obtain ⟨base, hbase, hlong⟩ := h
  cases segment with
  | pointer | temp =>
    cases hbase
    exact ⟨rfl, numeral_of_long hlong t⟩
  | argument | «local» | static | constant | this | that => cases hbase

theorem pointToBased_eq (hdirect : ¬ segment.isDirect = true) (hconstant : segment ≠ .constant)
    (hoffset : offset.repr.length ≤ Text.digitLimit) (t : Translator) :
    ∃ register, (∀ options, access t.name options segment offset = .based register) ∧
      pointToBased segment offset t = .ok () (t.extend (pointTo register offset) 0) := by
  cases segment with
  | argument | «local» | this | that =>
    exact ⟨_, fun _ => rfl, bind_eq_ok.2 ⟨_, _, numeral_offset hoffset t, rfl⟩⟩
  | constant => exact absurd rfl hconstant
  | static | pointer | temp => exact absurd rfl hdirect

theorem push_of_fits (hoffset : offset.repr.length ≤ Text.digitLimit) (hfits : ¬ TooWide t.options segment offset) :
    push segment offset t = .ok () (t.extend (pushCode offset (access t.name t.options segment offset)) 0) := by
  rw [push]
  by_cases hconstant : segment = .constant
  · subst hconstant
    have hload : loadConstant offset t = .ok () (t.extend [load offset.repr, setD "A"] 0) := by
      rw [loadConstant, if_neg (by omega)]
      exact bind_eq_ok.2 ⟨_, _, numeral_offset hoffset t, rfl⟩
    rw [if_pos rfl]
    exact bind_eq_ok.2 ⟨_, _, hload, emit_extend t _ pushD 0⟩
  · rw [if_neg hconstant]
    by_cases hdirect : segment.isDirect = true
    · obtain ⟨symbol, haccess, haddress⟩ := directAddress_of_fits hdirect hoffset hfits
      have hload : loadDirect segment offset t = .ok () (t.extend [load symbol, setD "M"] 0) :=
        bind_eq_ok.2 ⟨_, _, haddress, rfl⟩
      rw [if_pos hdirect, haccess]
      exact bind_eq_ok.2 ⟨_, _, hload, emit_extend t _ pushD 0⟩
    · obtain ⟨register, haccess, hpoint⟩ := pointToBased_eq hdirect hconstant hoffset t
      rw [if_neg hdirect, haccess]
      exact bind_eq_ok.2 ⟨_, _, hpoint, bind_eq_ok.2 ⟨_, _, emit_extend t _ _ 0, emit_extend t _ pushD 0⟩⟩

theorem push_of_tooWide (h : TooWide t.options segment offset) :
    push segment offset t = .error (.numeral .tooWide) t := by
  obtain ⟨hdirect, haddress⟩ := directAddress_of_tooWide h
  have hconstant : segment ≠ .constant := by
    intro hconstant
    rw [hconstant] at hdirect
    cases hdirect
  rw [push, if_neg hconstant, if_pos hdirect]
  exact bind_eq_error.2 (.inl (bind_eq_error.2 (.inl haddress)))

theorem pop_of_fits (hoffset : offset.repr.length ≤ Text.digitLimit) (hconstant : segment ≠ .constant)
    (hfits : ¬ TooWide t.options segment offset) :
    pop segment offset t = .ok () (t.extend (popCode offset (access t.name t.options segment offset)) 0) := by
  refine bind_eq_ok.2 ⟨_, _, emit_eq t popD, ?_⟩
  by_cases hdirect : segment.isDirect = true
  · obtain ⟨symbol, haccess, haddress⟩ := directAddress_of_fits (t := t.extend popD 0) hdirect hoffset hfits
    have haccess : access t.name t.options segment offset = .direct symbol := haccess
    rw [if_pos hdirect, haccess]
    exact bind_eq_ok.2 ⟨_, _, haddress, emit_extend t popD _ 0⟩
  · obtain ⟨register, haccess, hpoint⟩ := pointToBased_eq hdirect hconstant hoffset
      (t.extend (popD ++ [load "R13", setM "D"]) 0)
    have haccess : access t.name t.options segment offset = .based register := haccess _
    rw [if_neg hdirect, haccess]
    rw [extend_extend] at hpoint
    exact bind_eq_ok.2 ⟨_, _, emit_extend t popD _ 0, bind_eq_ok.2 ⟨_, _, hpoint, emit_extend t _ _ 0⟩⟩

/-- What is popped is popped before the address of its cell is made. -/
theorem pop_of_tooWide (h : TooWide t.options segment offset) :
    pop segment offset t = .error (.numeral .tooWide) (t.extend popD 0) := by
  obtain ⟨hdirect, haddress⟩ := directAddress_of_tooWide (t := t.extend popD 0) h
  refine bind_eq_error.2 (.inr ⟨_, _, emit_eq t popD, ?_⟩)
  rw [if_pos hdirect]
  exact bind_eq_error.2 (.inl haddress)

theorem arithmetic_eq (operation : Operation) (t : Translator) : arithmetic operation t =
    .ok () (t.extend (operationCode t.options t.labels operation) (Command.arithmetic operation).comparisons) := by
  cases operation with
  | add | sub | and | or | neg | not => rfl
  | eq | lt | gt =>
    refine bind_eq_ok.2 ⟨_, _, emit_eq t _, bind_eq_ok.2 ⟨_, _, rfl, ?_⟩⟩
    exact (congrArg (EStateM.Result.ok ()) (extend_extend t _ _ 0 1)).trans rfl

theorem translate_of_fits {text : String} {location : Option Location} {c : Command} (hsound : c.Sound)
    (hc : c.isTranslated = true) (hfits : ¬ c.TooWide t.options) :
    translate text location c t = .ok () (t.extend (c.code t.name t.options t.labels) c.comparisons) := by
  cases c with
  | push segment offset => exact push_of_fits hsound hfits
  | pop segment offset => exact pop_of_fits hsound.1 hsound.2 hfits
  | arithmetic operation => exact arithmetic_eq operation t
  | unsupported | unrecognized => cases hc

theorem translate_of_tooWide {text : String} {location : Option Location} {c : Command}
    (h : c.TooWide t.options) : translate text location c t = .error (.numeral .tooWide) (t.extend c.begun 0) := by
  cases c with
  | push segment offset => exact push_of_tooWide h
  | pop segment offset => exact pop_of_tooWide h
  | arithmetic | unsupported | unrecognized => exact h.elim

/-! ## What becomes of a line -/

variable {line : Line} {r : EStateM.Result Failure Translator (List String)}

/-- The warning about a command of the language that is not translated. -/
def unsupportedWarning (flow : Flow) (line : Line) : String :=
  "Skipping unsupported " ++ flow.word ++ " command '" ++ line.content ++ "'" ++ Location.describe line.location

/-- The warning about a command that is not known. -/
def unrecognizedWarning (line : Line) : String :=
  "Skipping unrecognized command '" ++ line.content ++ "'" ++ Location.describe line.location

/-- What a command that is not known is refused for. A single word can only have been meant as an
operation. -/
def unknownCause (line : Line) : Cause :=
  if (Text.words line.content.toList).length = 1 then .unknownOperation line.content
  else .unrecognizedCommand line.content

/-- What a command that is not known is refused with. -/
def objection (line : Line) : Failure :=
  (unknownCause line).at line.location

/-- What is handed out for a line with this code: what was left in the buffer, the remark that repeats
the line, and the code. -/
def handedOut (t : Translator) (line : Line) (code : List Instruction) : List String :=
  t.buffer.toList ++ remarks t.options line.content ++ code.map Instruction.render

theorem handedOut_nil (t : Translator) (line : Line) :
    t.handedOut line [] = (t.buffer ++ remarks t.options line.content).toList := by
  simp only [handedOut, List.map_nil, List.append_nil, Array.toList_appendList]

theorem flush_eq (t : Translator) : flush t = .ok t.buffer.toList { t with buffer := #[] } :=
  rfl

/-- Everything that can become of a line. -/
inductive Outcome (line : Line) (t : Translator) : EStateM.Result Failure Translator (List String) → Prop
  | blank : line.classified? = none → Outcome line t (.ok [] t)
  | malformed {e : Failure} : line.classified? = some (.error e) → Outcome line t (.error e t)
  | written {c : Command} : line.classified? = some (.ok c) → c.isTranslated = true → ¬ c.TooWide t.options →
    Outcome line t (.ok (t.handedOut line (c.code t.name t.options t.labels))
      { t with buffer := #[], labels := t.labels + c.comparisons })
  | cutShort {c : Command} : line.classified? = some (.ok c) → c.TooWide t.options →
    Outcome line t (.error (.numeral .tooWide)
      { t with buffer := t.buffer ++ (remarks t.options line.content ++ c.begun.map Instruction.render) })
  | unsupported {flow : Flow} {text : String} : line.classified? = some (.ok (.unsupported flow text)) →
    Outcome line t (.ok (t.handedOut line [])
      { t with buffer := #[], warnings := t.warnings.push (unsupportedWarning flow line) })
  | skipped {text : String} : line.classified? = some (.ok (.unrecognized text)) → t.options.strict = false →
    Outcome line t (.ok (t.handedOut line [])
      { t with buffer := #[], warnings := t.warnings.push (unrecognizedWarning line) })
  | objected {text : String} : line.classified? = some (.ok (.unrecognized text)) → t.options.strict = true →
    Outcome line t (.error (objection line) { t with buffer := t.buffer ++ remarks t.options line.content })

/-- What a translator that is not done yet makes of a line. -/
theorem translateLine_eq (hopen : t.finalized = false) :
    translateLine line t = (if line.content == "" then pure [] else do
      let command ← MonadExcept.ofExcept (Command.classify line.content line.location)
      comment line.content
      translate line.content line.location command
      flush : Translating (List String)) t := by
  show (if t.finalized then _ else _ : Translating (List String)) t = _
  rw [hopen]
  rfl

theorem translateLine_of_none (hopen : t.finalized = false) (h : line.classified? = none) :
    translateLine line t = .ok [] t := by
  have hcontent : line.content = "" := by
    by_contra hcontent
    rw [Line.classified?, if_neg hcontent] at h
    cases h
  rw [translateLine_eq hopen, if_pos (by simpa using hcontent)]
  rfl

theorem translateLine_of_error (hopen : t.finalized = false) {e : Failure} (h : line.classified? = some (.error e)) :
    translateLine line t = .error e t := by
  obtain ⟨hcontent, hclassify⟩ := Line.classify_of_classified? h
  rw [translateLine_eq hopen, if_neg (by simpa using hcontent), hclassify]
  rfl

/-- A command is remarked on, translated and handed out. -/
theorem translateLine_of_ok (hopen : t.finalized = false) {c : Command} (h : line.classified? = some (.ok c)) :
    translateLine line t = (translate line.content line.location c >>= fun _ => flush)
      { t with buffer := t.buffer ++ remarks t.options line.content } := by
  obtain ⟨hcontent, hclassify⟩ := Line.classify_of_classified? h
  rw [translateLine_eq hopen, if_neg (by simpa using hcontent), hclassify]
  show EStateM.bind (comment line.content) _ t = _
  rw [EStateM.bind, comment_eq]

theorem skipUnrecognized_of_strict {text : String}
    (h : Command.classify line.content line.location = .ok (.unrecognized text)) (hstrict : t.options.strict = true) :
    skipUnrecognized line.content line.location t = .error (objection line) t := by
  show (if t.options.strict then _ else _ : Translating Unit) t = _
  rw [if_pos hstrict, objection, unknownCause]
  by_cases hone : (Text.words line.content.toList).length = 1
  · rw [if_pos (by simpa using hone), if_pos hone, Operation.parse_of_unrecognized h hone]
    rfl
  · rw [if_neg (by simpa using hone), if_neg hone]
    rfl

theorem skipUnrecognized_of_lax (hstrict : t.options.strict = false) :
    skipUnrecognized line.content line.location t =
      .ok () { t with warnings := t.warnings.push (unrecognizedWarning line) } := by
  show (if t.options.strict then _ else _ : Translating Unit) t = _
  rw [hstrict]
  rfl

/-- What is said of a line becomes of it. -/
theorem Outcome.translateLine_eq (hopen : t.finalized = false) (h : Outcome line t r) : translateLine line t = r := by
  cases h with
  | blank hline => exact translateLine_of_none hopen hline
  | malformed hline => exact translateLine_of_error hopen hline
  | @written c hline hc hfits =>
    have hsound := Command.sound_of_classify (Line.classify_of_classified? hline).2
    rw [translateLine_of_ok hopen hline]
    refine bind_eq_ok.2 ⟨_, _, translate_of_fits hsound hc hfits, ?_⟩
    simp only [flush_eq, extend, handedOut, Array.toList_appendList]
  | cutShort hline hwide =>
    rw [translateLine_of_ok hopen hline, ← appendList_assoc]
    exact bind_eq_error.2 (.inl (translate_of_tooWide hwide))
  | unsupported hline =>
    rw [translateLine_of_ok hopen hline, handedOut_nil]
    exact bind_eq_ok.2 ⟨_, _, rfl, rfl⟩
  | skipped hline hstrict =>
    rw [translateLine_of_ok hopen hline, handedOut_nil]
    exact bind_eq_ok.2 ⟨_, _, skipUnrecognized_of_lax hstrict, rfl⟩
  | objected hline hstrict =>
    rw [translateLine_of_ok hopen hline]
    exact bind_eq_error.2 (.inl (skipUnrecognized_of_strict (Line.classify_of_classified? hline).2 hstrict))

theorem exists_outcome (line : Line) (t : Translator) : ∃ r, Outcome line t r := by
  cases hline : line.classified? with
  | none => exact ⟨_, .blank hline⟩
  | some r =>
    cases r with
    | error e => exact ⟨_, .malformed hline⟩
    | ok c =>
      by_cases hwide : c.TooWide t.options
      · exact ⟨_, .cutShort hline hwide⟩
      cases c with
      | push | pop | arithmetic => exact ⟨_, .written hline rfl hwide⟩
      | unsupported flow text => exact ⟨_, .unsupported hline⟩
      | unrecognized text =>
        cases hstrict : t.options.strict with
        | false => exact ⟨_, .skipped hline hstrict⟩
        | true => exact ⟨_, .objected hline hstrict⟩

/-- **What becomes of a line is one of the outcomes,** and that one only. -/
theorem translateLine_eq_iff (hopen : t.finalized = false) : translateLine line t = r ↔ Outcome line t r := by
  constructor
  · intro h
    obtain ⟨r', hr'⟩ := exists_outcome line t
    rw [← h, hr'.translateLine_eq hopen]
    exact hr'
  · exact Outcome.translateLine_eq hopen

end Translator

end HackToolchain
