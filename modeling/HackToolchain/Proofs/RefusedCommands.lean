import HackToolchain.Proofs.LineOutcome
import Mathlib
/-!
Why a unit is refused. Translation stops at the first line with a fault, and what it stops with is
about that line: operands that do not fit, a segment that is not known, a command that is not known
where that is not allowed, or a number with too many digits, read in the line or made by adding the
base of a segment. No other failure of a translator can be reached from a line with a word in it.
-/

namespace HackToolchain

namespace Text

/-- What is left of a text without the blanks at its ends ends with a character that is not blank. -/
theorem words_trim_ne_nil {cs : List Char} (h : trim cs ≠ []) : words (trim cs) ≠ [] := by
  refine words_ne_nil ?_
  have hrest : (cs.dropWhile isBlank).reverse.dropWhile isBlank ≠ [] := by
    intro hnil
    rw [trim, trimBoth, hnil] at h
    exact h rfl
  refine ⟨_, List.mem_reverse.2 (List.head_mem hrest), ?_⟩
  simpa using List.head_dropWhile_not isBlank hrest

end Text

/-- There is a word in every raw line that holds something: what cuts a text into words is what is taken
off its ends. -/
theorem words_stripComment_ne_nil {l : String} (h : stripComment l ≠ "") : Text.words (stripComment l).toList ≠ [] := by
  rw [stripComment, String.toList_ofList]
  refine Text.words_trim_ne_nil fun hnil => h ?_
  rw [stripComment, hnil]

/-! ## What the grammar refuses -/

namespace Command

variable {text : String} {location : Option Location} {e : Failure}

/-- Why the grammar refuses a text, and with what. -/
inductive Fault (text : String) (location : Option Location) : Failure → Prop
  | operands {reason : String} : Fault text location (Cause.at (.invalidOperands text reason) location)
  | segment {word : String} : Fault text location (Cause.at (.unknownSegment word) location)
  | digits {first segment digits : List Char} : Text.words text.toList = [first, segment, digits] →
    Text.isNumeral digits = true → Text.digitLimit < digits.length →
    Fault text location (.numeral (.tooLong digits.length))
  | blank : Text.words text.toList = [] → Fault text location (.breach .emptyCommand)

theorem fault_of_classify (h : classify text location = .error e) : Fault text location e := by
  cases hwords : Text.words text.toList with
  | nil =>
    rw [classify, hwords] at h
    cases h
    exact .blank hwords
  | cons first operands =>
    cases (classify_eq_iff hwords).1 h with
    | unknownSegment => exact .segment
    | tooLong _ _ hdigits hlength => exact .digits hwords (Instruction.isNumeral_iff.2 hdigits) hlength
    | misused => exact .operands

end Command

/-! ## What the translator refuses -/

namespace Translator

variable {t t' : Translator} {e : Failure}

/-- Why a line is refused, and with what. -/
inductive LineFault (options : Options) (line : Line) : Failure → Prop
  | grammar {e : Failure} : Command.Fault line.content line.location e → LineFault options line e
  | operation : options.strict = true →
    LineFault options line (Cause.at (.unknownOperation line.content) line.location)
  | command : options.strict = true →
    LineFault options line (Cause.at (.unrecognizedCommand line.content) line.location)
  | width {c : Command} {segment : Segment} {offset : Nat} :
    Command.classify line.content line.location = .ok c → c = .push segment offset ∨ c = .pop segment offset →
    TooWide options segment offset → LineFault options line (.numeral .tooWide)

/-- A line is refused for a fault of its own, if there is anything on it. -/
theorem fault_of_translateLine {line : Line} (hf : t.finalized = false) (h : translateLine line t = .error e t') :
    line.content ≠ "" ∧ LineFault t.options line e := by
  cases (translateLine_eq_iff hf).1 h with
  | malformed hline =>
    obtain ⟨hcontent, hclassify⟩ := Line.classify_of_classified? hline
    exact ⟨hcontent, .grammar (Command.fault_of_classify hclassify)⟩
  | @cutShort c hline hwide =>
    obtain ⟨hcontent, hclassify⟩ := Line.classify_of_classified? hline
    refine ⟨hcontent, ?_⟩
    cases c with
    | push segment offset => exact .width hclassify (.inl rfl) hwide
    | pop segment offset => exact .width hclassify (.inr rfl) hwide
    | arithmetic | unsupported | unrecognized => exact hwide.elim
  | objected hline hstrict =>
    refine ⟨(Line.classify_of_classified? hline).1, ?_⟩
    rw [objection, unknownCause]
    split
    · exact .operation hstrict
    · exact .command hstrict

/-- **A unit is refused for a fault of one of its lines.** -/
theorem fault_of_translateLines {name : String} {options : Options} {lines : List Line}
    (h : translateLines name options lines = .error e t) :
    ∃ line ∈ lines, line.content ≠ "" ∧ LineFault options line e := by
  obtain ⟨before, line, after, outs, t₁, rfl, hbefore, hline⟩ := translateLines_eq_error.1 h
  have hspelled := spelled_of_traverses rfl rfl hbefore
  have hfault := fault_of_translateLine (hspelled.frame.2.2.trans rfl) hline
  rw [hspelled.frame.2.1] at hfault
  exact ⟨line, by simp, hfault⟩

/-- What a line with a word in it can be refused with. -/
inductive Refusal (options : Options) (line : Line) : Failure → Prop
  | operands {reason : String} : Refusal options line (Cause.at (.invalidOperands line.content reason) line.location)
  | segment {word : String} : Refusal options line (Cause.at (.unknownSegment word) line.location)
  | operation : options.strict = true →
    Refusal options line (Cause.at (.unknownOperation line.content) line.location)
  | command : options.strict = true →
    Refusal options line (Cause.at (.unrecognizedCommand line.content) line.location)
  /-- A number in the line, or the address made of it, has too many digits. -/
  | digits {fault : Text.NumeralFault} : Refusal options line (.numeral fault)

theorem LineFault.refusal {options : Options} {line : Line} (hwords : Text.words line.content.toList ≠ [])
    (h : LineFault options line e) : Refusal options line e := by
  cases h with
  | operation hstrict => exact .operation hstrict
  | command hstrict => exact .command hstrict
  | width => exact .digits
  | grammar hgrammar =>
    cases hgrammar with
    | operands => exact .operands
    | segment => exact .segment
    | digits => exact .digits
    | blank hnil => exact absurd hnil hwords

/-- **Only the source can make a translation fail.** Whatever raw lines a fresh translator is given,
under every name and all options, it translates them all, or it refuses one of them: for its operands,
for its segment, for a command that is not known if it is strict, or for a number with too many digits.
No call is made that may not be made, no table is asked for a key it lacks, and no segment for an address
it does not have. -/
theorem translation_fails_only_for_source (name : String) (options : Options) (ls : List String) :
    (∃ out t, translateLines name options (ls.map .raw) = .ok out t) ∨
    ∃ e t, translateLines name options (ls.map .raw) = .error e t ∧ (∃ l ∈ ls, Refusal options (.raw l) e) ∧
      (∀ breach, e ≠ .breach breach) ∧ (∀ key, e ≠ .missingKey key) ∧ ∀ segment, e ≠ .noFixedAddress segment := by
  cases h : translateLines name options (ls.map .raw) with
  | ok out t => exact .inl ⟨out, t, rfl⟩
  | error e t =>
    obtain ⟨line, hline, hcontent, hfault⟩ := fault_of_translateLines h
    obtain ⟨l, hl, rfl⟩ := List.mem_map.1 hline
    have hwords : Text.words (Line.raw l).content.toList ≠ [] := words_stripComment_ne_nil (l := l) hcontent
    have hrefusal := hfault.refusal hwords
    refine .inr ⟨e, t, rfl, ⟨l, hl, hrefusal⟩, ?_⟩
    cases hrefusal <;> simp [Cause.at]

end Translator

end HackToolchain
