import HackToolchain.Command.Grammar
import HackToolchain.Proofs.InstructionGrammar
import Mathlib
/-!
The grammar of commands, said without the parser. A line is words with blanks around them, and a word
is known by its small letters. From the words alone it follows what the command is or why there is
none, so blanks can be put in differently and keywords written in other case.
-/

namespace HackToolchain

namespace Text

/-! ## Words with blanks around them -/

/-- A text that consists of these words, with blanks before and behind them and at least one blank
between two of them. -/
inductive Spaced : List (List Char) → List Char → Prop
  | nil {gap : List Char} : Blank gap → Spaced [] gap
  | cons {gap word rest : List Char} {words : List (List Char)} : Blank gap → word ≠ [] →
    (∀ c ∈ word, isBlank c = false) → (∀ c ∈ rest.head?, isBlank c = true) → Spaced words rest →
    Spaced (word :: words) (gap ++ word ++ rest)

theorem words_blank_append {gap : List Char} (h : Blank gap) (cs : List Char) : words (gap ++ cs) = words cs := by
  induction gap with
  | nil => rfl
  | cons c gap ih =>
    obtain ⟨hc, hgap⟩ := List.forall_mem_cons.1 h
    rw [List.cons_append, words, wordsFrom, if_pos hc, if_pos List.isEmpty_nil]
    exact ih hgap

theorem wordsFrom_append {word : List Char} (h : ∀ c ∈ word, isBlank c = false) (begun cs : List Char) :
    wordsFrom begun (word ++ cs) = wordsFrom (word.reverse ++ begun) cs := by
  induction word generalizing begun with
  | nil => rfl
  | cons c word ih =>
    obtain ⟨hc, hword⟩ := List.forall_mem_cons.1 h
    rw [List.cons_append, wordsFrom, if_neg (by simp [hc]), ih hword]
    simp

theorem wordsFrom_stop {begun rest : List Char} (hbegun : begun ≠ []) (h : ∀ c ∈ rest.head?, isBlank c = true) :
    wordsFrom begun rest = begun.reverse :: words rest := by
  cases rest with
  | nil => simp [wordsFrom, words, hbegun]
  | cons c rest => simp [wordsFrom, words, hbegun, h c rfl]

theorem Spaced.words_eq {ws : List (List Char)} {cs : List Char} (h : Spaced ws cs) : words cs = ws := by
  induction h with
  | nil hgap =>
    have hnone := words_blank_append hgap []
    rw [List.append_nil] at hnone
    exact hnone
  | @cons gap word rest ws hgap hne hword hrest _ ih =>
    rw [List.append_assoc, words_blank_append hgap, words, wordsFrom_append hword, List.append_nil,
      wordsFrom_stop (by simpa using hne) hrest, List.reverse_reverse, ih]

theorem Spaced.cons_blank {ws : List (List Char)} {cs : List Char} {c : Char} (hc : isBlank c = true)
    (h : Spaced ws cs) : Spaced ws (c :: cs) := by
  cases h with
  | nil hgap => exact .nil (List.forall_mem_cons.2 ⟨hc, hgap⟩)
  | @cons gap word rest ws hgap hne hword hrest h => exact .cons (List.forall_mem_cons.2 ⟨hc, hgap⟩) hne hword hrest h

/-- A word that begins the text. -/
theorem Spaced.cons_word {ws : List (List Char)} {word rest : List Char} (hne : word ≠ [])
    (hword : ∀ c ∈ word, isBlank c = false) (hrest : ∀ c ∈ rest.head?, isBlank c = true) (h : Spaced ws rest) :
    Spaced (word :: ws) (word ++ rest) :=
  .cons (List.forall_mem_nil _) hne hword hrest h

theorem spaced_wordsFrom {begun : List Char} (h : ∀ c ∈ begun, isBlank c = false) (cs : List Char) :
    Spaced (wordsFrom begun cs) (begun.reverse ++ cs) := by
  induction cs generalizing begun with
  | nil =>
    by_cases hbegun : begun = []
    · subst hbegun
      exact .nil (List.forall_mem_nil _)
    · rw [wordsFrom, if_neg (by simpa using hbegun)]
      exact .cons_word (by simpa using hbegun) (by simpa using h) (by simp) (.nil (List.forall_mem_nil _))
  | cons c cs ih =>
    by_cases hc : isBlank c = true
    · have hrest : Spaced (wordsFrom [] cs) (c :: cs) := .cons_blank hc (ih (List.forall_mem_nil _))
      by_cases hbegun : begun = []
      · subst hbegun
        rw [wordsFrom, if_pos hc, if_pos List.isEmpty_nil]
        exact hrest
      · rw [wordsFrom, if_pos hc, if_neg (by simpa using hbegun)]
        exact .cons_word (by simpa using hbegun) (by simpa using h) (by simp [hc]) hrest
    · rw [Bool.not_eq_true] at hc
      have hmore := ih (List.forall_mem_cons.2 ⟨hc, h⟩)
      rw [wordsFrom, if_neg (by simp [hc])]
      simpa using hmore

/-- The words of a text are the ones it consists of. -/
theorem words_eq_iff {ws : List (List Char)} {cs : List Char} : words cs = ws ↔ Spaced ws cs := by
  constructor
  · rintro rfl
    exact spaced_wordsFrom (List.forall_mem_nil _) cs
  · exact Spaced.words_eq

theorem words_ne_nil {cs : List Char} (h : ∃ c ∈ cs, isBlank c = false) : words cs ≠ [] := by
  intro hnil
  obtain ⟨c, hc, hword⟩ := h
  cases words_eq_iff.1 hnil with
  | nil hblank => simp [hblank c hc] at hword

/-! ## Small letters -/

theorem toLower_eq_or_capital (c : Char) : c.toLower = c ∨ ∃ n < 91, 65 ≤ n ∧ c = Char.ofNat n := by
  by_cases h : 65 ≤ c.toNat ∧ c.toNat < 91
  · exact .inr ⟨c.toNat, h.2, h.1, (Char.ofNat_toNat c).symm⟩
  · left
    rw [Char.toLower, dif_neg]
    simpa [UInt32.le_iff_toNat_le, Nat.lt_succ_iff] using h

/-- What the Latin capitals have in common with their small letters is enough to be common to all. -/
theorem toLower_congr {α : Type} {f : Char → α}
    (h : ∀ n < 91, 65 ≤ n → f (Char.ofNat n).toLower = f (Char.ofNat n)) (c : Char) : f c.toLower = f c := by
  rcases toLower_eq_or_capital c with hc | ⟨n, hlt, hle, rfl⟩
  · rw [hc]
  · exact h n hlt hle

theorem isCased_toLower : ∀ c : Char, isCased c.toLower = isCased c :=
  toLower_congr (by decide +kernel)

theorem isCaseIgnorable_toLower : ∀ c : Char, isCaseIgnorable c.toLower = isCaseIgnorable c :=
  toLower_congr (by decide +kernel)

theorem lowerChar_toLower : ∀ c : Char, lowerChar c.toLower = lowerChar c :=
  toLower_congr (by decide +kernel)

theorem isSigma_toLower : ∀ c : Char, (c.toLower.toNat == 0x3A3) = (c.toNat == 0x3A3) :=
  toLower_congr (f := fun c => c.toNat == 0x3A3) (by decide +kernel)

theorem endsWord_map_toLower (before after : List Char) :
    endsWord (before.map Char.toLower) (after.map Char.toLower) = endsWord before after := by
  have hhead : ∀ cs : List Char, (((cs.map Char.toLower).dropWhile isCaseIgnorable).head?.any isCased) =
      ((cs.dropWhile isCaseIgnorable).head?.any isCased) := by
    intro cs
    rw [List.dropWhile_map, List.head?_map, Option.any_map]
    congr 1
    · exact funext isCased_toLower
    · rw [show isCaseIgnorable ∘ Char.toLower = isCaseIgnorable from funext isCaseIgnorable_toLower]
  rw [endsWord, endsWord, hhead, hhead]

theorem lowercaseFrom_map_toLower (before cs : List Char) :
    lowercaseFrom (before.map Char.toLower) (cs.map Char.toLower) = lowercaseFrom before cs := by
  induction cs generalizing before with
  | nil => rfl
  | cons c cs ih =>
    rw [List.map_cons, lowercaseFrom, lowercaseFrom, isSigma_toLower, endsWord_map_toLower, lowerChar_toLower,
      ← List.map_cons, ih]

/-- Words that are the same but for the case of Latin letters. -/
def SameLetters (word word' : List Char) : Prop :=
  word.map Char.toLower = word'.map Char.toLower

instance (word word' : List Char) : Decidable (SameLetters word word') :=
  inferInstanceAs (Decidable (word.map Char.toLower = word'.map Char.toLower))

theorem SameLetters.lowercase_eq {word word' : List Char} (h : SameLetters word word') :
    lowercase word = lowercase word' := by
  have hmap : ∀ cs : List Char, lowercase (cs.map Char.toLower) = lowercase cs := lowercaseFrom_map_toLower []
  rw [← hmap word, ← hmap word', show word.map Char.toLower = word'.map Char.toLower from h]

/-! ## Numbers -/

theorem ofDigits_concat (digits : List Nat) (d : Nat) : ofDigits (digits ++ [d]) = 10 * ofDigits digits + d := by
  simp [ofDigits]

theorem ofDigits_eq (digits : List Nat) : ofDigits digits = Nat.ofDigits 10 digits.reverse := by
  induction digits using List.reverseRecOn with
  | nil => rfl
  | append_singleton digits d ih =>
    rw [ofDigits_concat, List.reverse_append, List.reverse_singleton, List.singleton_append, Nat.ofDigits_cons, ih]
    simp [Nat.add_comm]

end Text

/-! ## Keywords -/

/-- If every member of a list is found by its word, then nothing else is found by that word. -/
theorem find?_word_eq_some_iff {α : Type} {all : List α} {wordOf : α → String}
    (hall : ∀ a, all.find? (wordOf · == wordOf a) = some a) {word : String} {a : α} :
    all.find? (wordOf · == word) = some a ↔ word = wordOf a := by
  constructor
  · intro h
    have hword := List.find?_some h
    exact (beq_iff_eq.1 hword).symm
  · rintro rfl
    exact hall a

theorem Segment.ofWord?_eq_some_iff {word : String} {s : Segment} : ofWord? word = some s ↔ word = s.word :=
  find?_word_eq_some_iff fun s => by cases s <;> decide

theorem Operation.ofWord?_eq_some_iff {word : String} {o : Operation} : ofWord? word = some o ↔ word = o.word :=
  find?_word_eq_some_iff fun o => by cases o <;> decide

theorem Flow.ofWord?_eq_some_iff {word : String} {f : Flow} : ofWord? word = some f ↔ word = f.word :=
  find?_word_eq_some_iff fun f => by cases f <;> decide

namespace Command

/-! ## The grammar -/

/-- What a word is known by. -/
def key (word : List Char) : String :=
  String.ofList (Text.lowercase word)

/-- The keywords of access to a segment. -/
def accessWord (isPush : Bool) : String :=
  if isPush then "push" else "pop"

/-- Digits that can be read, and the number that they denote. -/
def Denotes (digits : List Char) (n : Nat) : Prop :=
  Instruction.Literal digits ∧ digits.length ≤ 4300 ∧
    Nat.ofDigits 10 (digits.reverse.map fun c => c.toNat - '0'.toNat) = n

/-- A word that begins no command. -/
def Unknown (word : List Char) : Prop :=
  (∀ isPush, key word ≠ accessWord isPush) ∧ (∀ o : Operation, key word ≠ o.word) ∧ ∀ f : Flow, key word ≠ f.word

/-- Operands that do not fit the command, and what is wrong with them. -/
inductive Misused : List (List Char) → String → Prop
  | count {first : List Char} {operands : List (List Char)} {isPush : Bool} : key first = accessWord isPush →
    operands.length ≠ 2 → Misused (first :: operands) (wrongOperandCount (accessWord isPush) operands.length)
  | offset {first segment digits : List Char} {isPush : Bool} {s : Segment} : key first = accessWord isPush →
    key segment = s.word → ¬ Instruction.Literal digits → Misused [first, segment, digits] (badOffset digits)
  | bounds {first segment digits : List Char} {isPush : Bool} {n : Nat} : key first = accessWord isPush →
    key segment = "constant" → Denotes digits n → 32768 ≤ n →
    Misused [first, segment, digits] (offsetOutOfBounds .constant n 32768)
  | target {first segment digits : List Char} {n : Nat} : key first = "pop" → key segment = "constant" →
    Denotes digits n → n < 32768 → Misused [first, segment, digits] constantNotAddressable
  | operands {first : List Char} {operands : List (List Char)} {o : Operation} : key first = o.word → operands ≠ [] →
    Misused (first :: operands) (unexpectedOperands o.word operands.length)

/-- What the grammar makes of a text with these words. -/
inductive Reading (text : String) (location : Option Location) : List (List Char) → Except Failure Command → Prop
  | push {first segment digits : List Char} {s : Segment} {n : Nat} : key first = "push" → key segment = s.word →
    Denotes digits n → (s = .constant → n < 32768) → Reading text location [first, segment, digits] (.ok (.push s n))
  | pop {first segment digits : List Char} {s : Segment} {n : Nat} : key first = "pop" → key segment = s.word →
    Denotes digits n → s ≠ .constant → Reading text location [first, segment, digits] (.ok (.pop s n))
  | arithmetic {first : List Char} {o : Operation} : key first = o.word →
    Reading text location [first] (.ok (.arithmetic o))
  | unsupported {first : List Char} {operands : List (List Char)} {f : Flow} : key first = f.word →
    Reading text location (first :: operands) (.ok (.unsupported f text))
  | unrecognized {first : List Char} {operands : List (List Char)} : Unknown first →
    Reading text location (first :: operands) (.ok (.unrecognized text))
  | unknownSegment {first segment offset : List Char} {isPush : Bool} : key first = accessWord isPush →
    (∀ s : Segment, key segment ≠ s.word) → Reading text location [first, segment, offset]
      (.error (Cause.at (.unknownSegment (String.ofList segment)) location))
  | tooLong {first segment digits : List Char} {isPush : Bool} {s : Segment} : key first = accessWord isPush →
    key segment = s.word → Instruction.Literal digits → 4300 < digits.length →
    Reading text location [first, segment, digits] (.error (.numeral (.tooLong digits.length)))
  | misused {words : List (List Char)} {reason : String} : Misused words reason →
    Reading text location words (.error (Cause.at (.invalidOperands text reason) location))

variable {text : String} {location : Option Location} {first segment digits : List Char}
  {operands : List (List Char)} {isPush : Bool} {s : Segment} {n : Nat}

theorem denotes_numeralValue (hdigits : Instruction.Literal digits) (hlength : digits.length ≤ 4300) :
    Denotes digits (Text.numeralValue digits) := by
  refine ⟨hdigits, hlength, ?_⟩
  rw [Text.numeralValue, Text.ofDigits_eq, List.map_reverse]

theorem Denotes.readNumeral_eq (h : Denotes digits n) : Text.readNumeral digits = .ok n := by
  obtain ⟨hdigits, hlength, rfl⟩ := h
  have hread : Text.readNumeral digits = .ok (Text.numeralValue digits) := if_neg (Nat.not_lt.2 hlength)
  rw [hread, Text.numeralValue, Text.ofDigits_eq, List.map_reverse]

/-! ## Access to a segment -/

theorem segment_parse_known (h : key segment = s.word) : Segment.parse (String.ofList segment) location = .ok s := by
  rw [Segment.parse, String.toList_ofList, show String.ofList (Text.lowercase segment) = s.word from h,
    Segment.ofWord?_eq_some_iff.2 rfl]

theorem segment_parse_unknown (h : ∀ s : Segment, key segment ≠ s.word) :
    Segment.parse (String.ofList segment) location =
      .error (Cause.at (.unknownSegment (String.ofList segment)) location) := by
  have hnone : Segment.ofWord? (key segment) = none :=
    Option.eq_none_iff_forall_ne_some.2 fun s hs => h s (Segment.ofWord?_eq_some_iff.1 hs)
  rw [Segment.parse, String.toList_ofList, show Segment.ofWord? (String.ofList (Text.lowercase segment)) = none from hnone]

theorem parseAccess_count (h : operands.length ≠ 2) : parseAccess text location isPush operands =
    .error (Cause.at (.invalidOperands text (wrongOperandCount (accessWord isPush) operands.length)) location) := by
  rcases operands with _ | ⟨a, _ | ⟨b, _ | ⟨c, rest⟩⟩⟩
  · rfl
  · rfl
  · exact absurd rfl h
  · rfl

theorem parseAccess_unknown (h : ∀ s : Segment, key segment ≠ s.word) :
    parseAccess text location isPush [segment, digits] =
      .error (Cause.at (.unknownSegment (String.ofList segment)) location) := by
  simp only [parseAccess, segment_parse_unknown h, bind, Except.bind]

theorem parseAccess_badOffset (h : key segment = s.word) (hdigits : ¬ Instruction.Literal digits) :
    parseAccess text location isPush [segment, digits] =
      .error (Cause.at (.invalidOperands text (badOffset digits)) location) := by
  rw [← Instruction.isNumeral_iff, Bool.not_eq_true] at hdigits
  simp only [parseAccess, segment_parse_known h, bind, Except.bind, hdigits, Bool.not_false, if_true]

theorem parseAccess_tooLong (h : key segment = s.word) (hdigits : Instruction.Literal digits)
    (hlength : 4300 < digits.length) :
    parseAccess text location isPush [segment, digits] = .error (.numeral (.tooLong digits.length)) := by
  have hread : Text.readNumeral digits = .error (.tooLong digits.length) := if_pos hlength
  rw [← Instruction.isNumeral_iff] at hdigits
  simp only [parseAccess, segment_parse_known h, bind, Except.bind, hdigits, Bool.not_true, Bool.false_eq_true, if_false,
    hread]

theorem parseAccess_bounds (h : key segment = "constant") (hdigits : Denotes digits n) (hn : 32768 ≤ n) :
    parseAccess text location isPush [segment, digits] =
      .error (Cause.at (.invalidOperands text (offsetOutOfBounds .constant n 32768)) location) := by
  have hs : key segment = Segment.constant.word := h
  have hnumeral := Instruction.isNumeral_iff.2 hdigits.1
  simp [parseAccess, segment_parse_known hs, bind, Except.bind, hnumeral, hdigits.readNumeral_eq, constantLimit, hn]

theorem parseAccess_push (h : key segment = s.word) (hdigits : Denotes digits n) (hn : s = .constant → n < 32768) :
    parseAccess text location true [segment, digits] = .ok (.push s n) := by
  have hnumeral := Instruction.isNumeral_iff.2 hdigits.1
  have hfits : s = .constant → n < constantLimit := hn
  simpa [parseAccess, segment_parse_known h, bind, Except.bind, hnumeral, hdigits.readNumeral_eq] using hfits

theorem parseAccess_target (h : key segment = "constant") (hdigits : Denotes digits n) (hn : n < 32768) :
    parseAccess text location false [segment, digits] =
      .error (Cause.at (.invalidOperands text constantNotAddressable) location) := by
  have hs : key segment = Segment.constant.word := h
  have hnumeral := Instruction.isNumeral_iff.2 hdigits.1
  have hfits : ¬ constantLimit ≤ n := Nat.not_le.2 hn
  simp [parseAccess, segment_parse_known hs, bind, Except.bind, hnumeral, hdigits.readNumeral_eq, hfits]

theorem parseAccess_pop (h : key segment = s.word) (hdigits : Denotes digits n) (hs : s ≠ .constant) :
    parseAccess text location false [segment, digits] = .ok (.pop s n) := by
  have hnumeral := Instruction.isNumeral_iff.2 hdigits.1
  simp [parseAccess, segment_parse_known h, bind, Except.bind, hnumeral, hdigits.readNumeral_eq, popInto, hs]

/-- Access to a segment is read as what it is. -/
theorem reading_access (hfirst : key first = accessWord isPush) :
    Reading text location (first :: operands) (parseAccess text location isPush operands) := by
  by_cases hcount : operands.length = 2
  swap
  · rw [parseAccess_count hcount]
    exact .misused (.count hfirst hcount)
  obtain ⟨segment, digits, rfl⟩ := List.length_eq_two.1 hcount
  by_cases hsegment : ∃ s : Segment, key segment = s.word
  swap
  · rw [not_exists] at hsegment
    rw [parseAccess_unknown hsegment]
    exact .unknownSegment hfirst hsegment
  obtain ⟨s, hs⟩ := hsegment
  by_cases hdigits : Instruction.Literal digits
  swap
  · rw [parseAccess_badOffset hs hdigits]
    exact .misused (.offset hfirst hs hdigits)
  by_cases hlength : digits.length ≤ 4300
  swap
  · rw [not_le] at hlength
    rw [parseAccess_tooLong hs hdigits hlength]
    exact .tooLong hfirst hs hdigits hlength
  -- The offset is a number; whether it fits depends on the segment alone.
  have hn := denotes_numeralValue hdigits hlength
  by_cases hbounds : s = .constant ∧ 32768 ≤ Text.numeralValue digits
  · obtain ⟨rfl, hlarge⟩ := hbounds
    rw [parseAccess_bounds hs hn hlarge]
    exact .misused (.bounds hfirst hs hn hlarge)
  have hsmall : s = .constant → Text.numeralValue digits < 32768 :=
    fun hconstant => not_le.1 fun hlarge => hbounds ⟨hconstant, hlarge⟩
  cases isPush with
  | true =>
    rw [parseAccess_push hs hn hsmall]
    exact .push hfirst hs hn hsmall
  | false =>
    by_cases hconstant : s = .constant
    · subst hconstant
      rw [parseAccess_target hs hn (hsmall rfl)]
      exact .misused (.target hfirst hs hn (hsmall rfl))
    · rw [parseAccess_pop hs hn hconstant]
      exact .pop hfirst hs hn hconstant

/-! ## What a text is read as -/

theorem classify_access (hwords : Text.words text.toList = first :: operands) (h : key first = accessWord isPush) :
    classify text location = parseAccess text location isPush operands := by
  rw [classify, hwords]
  dsimp only
  rw [show String.ofList (Text.lowercase first) = accessWord isPush from h]
  cases isPush <;> rfl

theorem classify_operation {o : Operation} (hwords : Text.words text.toList = first :: operands)
    (h : key first = o.word) : classify text location =
      if operands.isEmpty then .ok (.arithmetic o)
      else .error (Cause.at (.invalidOperands text (unexpectedOperands o.word operands.length)) location) := by
  rw [classify, hwords]
  dsimp only
  rw [show String.ofList (Text.lowercase first) = o.word from h]
  cases o <;> rfl

theorem classify_flow {f : Flow} (hwords : Text.words text.toList = first :: operands) (h : key first = f.word) :
    classify text location = .ok (.unsupported f text) := by
  rw [classify, hwords]
  dsimp only
  rw [show String.ofList (Text.lowercase first) = f.word from h]
  cases f <;> rfl

theorem classify_unknown (hwords : Text.words text.toList = first :: operands) (h : Unknown first) :
    classify text location = .ok (.unrecognized text) := by
  obtain ⟨haccess, hoperation, hflow⟩ := h
  have hnone : Operation.ofWord? (key first) = none :=
    Option.eq_none_iff_forall_ne_some.2 fun o ho => hoperation o (Operation.ofWord?_eq_some_iff.1 ho)
  have hnone' : Flow.ofWord? (key first) = none :=
    Option.eq_none_iff_forall_ne_some.2 fun f hf => hflow f (Flow.ofWord?_eq_some_iff.1 hf)
  rw [classify, hwords]
  dsimp only
  rw [show String.ofList (Text.lowercase first) = key first from rfl, hnone, hnone',
    if_neg (by simpa [accessWord] using haccess true), if_neg (by simpa [accessWord] using haccess false)]

theorem reading_classify (hwords : Text.words text.toList = first :: operands) :
    Reading text location (first :: operands) (classify text location) := by
  by_cases haccess : ∃ isPush, key first = accessWord isPush
  · obtain ⟨isPush, h⟩ := haccess
    rw [classify_access hwords h]
    exact reading_access h
  by_cases hoperation : ∃ o : Operation, key first = o.word
  · obtain ⟨o, h⟩ := hoperation
    rw [classify_operation hwords h]
    cases operands with
    | nil => exact .arithmetic h
    | cons operand operands => exact .misused (.operands h (List.cons_ne_nil operand operands))
  by_cases hflow : ∃ f : Flow, key first = f.word
  · obtain ⟨f, h⟩ := hflow
    rw [classify_flow hwords h]
    exact .unsupported h
  rw [not_exists] at haccess hoperation hflow
  rw [classify_unknown hwords ⟨haccess, hoperation, hflow⟩]
  exact .unrecognized ⟨haccess, hoperation, hflow⟩

theorem classify_of_misused {words : List (List Char)} {reason : String} (hwords : Text.words text.toList = words)
    (h : Misused words reason) : classify text location = .error (Cause.at (.invalidOperands text reason) location) := by
  cases h with
  | count hfirst hcount => rw [classify_access hwords hfirst, parseAccess_count hcount]
  | offset hfirst hs hdigits => rw [classify_access hwords hfirst, parseAccess_badOffset hs hdigits]
  | bounds hfirst hs hn hlarge => rw [classify_access hwords hfirst, parseAccess_bounds hs hn hlarge]
  | target hfirst hs hn hsmall =>
    have hpop : key _ = accessWord false := hfirst
    rw [classify_access hwords hpop, parseAccess_target hs hn hsmall]
  | operands hfirst hne => rw [classify_operation hwords hfirst, if_neg (by simpa using hne)]

/-- **Classification decides the readings of a text with a word.** -/
theorem classify_eq_iff {r : Except Failure Command} (hwords : Text.words text.toList = first :: operands) :
    classify text location = r ↔ Reading text location (first :: operands) r := by
  constructor
  · rintro rfl
    exact reading_classify hwords
  · intro h
    cases h with
    | push hfirst hs hn hsmall =>
      have hpush : key first = accessWord true := hfirst
      rw [classify_access hwords hpush, parseAccess_push hs hn hsmall]
    | pop hfirst hs hn hconstant =>
      have hpop : key first = accessWord false := hfirst
      rw [classify_access hwords hpop, parseAccess_pop hs hn hconstant]
    | arithmetic hfirst => rw [classify_operation hwords hfirst, if_pos List.isEmpty_nil]
    | unsupported hfirst => exact classify_flow hwords hfirst
    | unrecognized hfirst => exact classify_unknown hwords hfirst
    | unknownSegment hfirst hsegment => rw [classify_access hwords hfirst, parseAccess_unknown hsegment]
    | tooLong hfirst hs hdigits hlength => rw [classify_access hwords hfirst, parseAccess_tooLong hs hdigits hlength]
    | misused h => exact classify_of_misused hwords h

/-- A command comes from words. -/
theorem exists_reading {c : Command} (h : classify text location = .ok c) :
    ∃ first operands, Reading text location (first :: operands) (.ok c) := by
  cases hwords : Text.words text.toList with
  | nil =>
    rw [classify, hwords] at h
    cases h
  | cons first operands => exact ⟨first, operands, (classify_eq_iff hwords).1 h⟩

/-! ## Other spellings -/

/-- Words of which the first two, the keyword and the name of a segment, may be in other case. -/
inductive Recased : List (List Char) → List (List Char) → Prop
  | keyword {first first' : List Char} : Text.SameLetters first first' → Recased [first] [first']
  | segment {first first' second second' : List Char} {rest : List (List Char)} : Text.SameLetters first first' →
    Text.SameLetters second second' → Recased (first :: second :: rest) (first' :: second' :: rest)

theorem key_eq {word word' : List Char} (h : Text.SameLetters word word') : key word' = key word :=
  congrArg String.ofList h.lowercase_eq.symm

theorem Recased.cons_inv {words : List (List Char)} (h : Recased (first :: operands) words) :
    ∃ first' operands', words = first' :: operands' ∧ key first' = key first ∧ operands'.length = operands.length := by
  cases h with
  | keyword hfirst => exact ⟨_, _, rfl, key_eq hfirst, rfl⟩
  | segment hfirst hsecond => exact ⟨_, _, rfl, key_eq hfirst, rfl⟩

theorem Recased.access_inv {words : List (List Char)} (h : Recased [first, segment, digits] words) :
    ∃ first' segment', words = [first', segment', digits] ∧ key first' = key first ∧ key segment' = key segment := by
  cases h with
  | segment hfirst hsegment => exact ⟨_, _, rfl, key_eq hfirst, key_eq hsegment⟩

theorem Misused.recased {words words' : List (List Char)} {reason : String} (h : Misused words reason)
    (hwords : Recased words words') : Misused words' reason := by
  cases h with
  | count hfirst hcount =>
    obtain ⟨first', operands', rfl, hkey, hlength⟩ := hwords.cons_inv
    rw [← hlength] at hcount ⊢
    exact .count (hkey.trans hfirst) hcount
  | offset hfirst hs hdigits =>
    obtain ⟨first', segment', rfl, hkey, hsegment⟩ := hwords.access_inv
    exact .offset (hkey.trans hfirst) (hsegment.trans hs) hdigits
  | bounds hfirst hs hn hlarge =>
    obtain ⟨first', segment', rfl, hkey, hsegment⟩ := hwords.access_inv
    exact .bounds (hkey.trans hfirst) (hsegment.trans hs) hn hlarge
  | target hfirst hs hn hsmall =>
    obtain ⟨first', segment', rfl, hkey, hsegment⟩ := hwords.access_inv
    exact .target (hkey.trans hfirst) (hsegment.trans hs) hn hsmall
  | operands hfirst hne =>
    obtain ⟨first', operands', rfl, hkey, hlength⟩ := hwords.cons_inv
    rw [← hlength]
    refine .operands (hkey.trans hfirst) fun hnil => hne ?_
    rwa [hnil, eq_comm, List.length_nil, List.length_eq_zero_iff] at hlength

/-- The command without the text that it quotes. -/
def bare : Command → Command
  | unsupported flow _ => unsupported flow ""
  | unrecognized _ => unrecognized ""
  | command => command

end Command

/-- The cause without the command or the segment that it quotes. -/
def Cause.bare : Cause → Cause
  | invalidOperands _ reason => invalidOperands "" reason
  | unknownSegment _ => unknownSegment ""
  | cause => cause

def Failure.bare : Failure → Failure
  | diagnosed diagnostic => diagnosed ⟨diagnostic.cause.bare, diagnostic.location⟩
  | failure => failure

namespace Command

/-- What was made of a text, without what is quoted from it. -/
def verdict (r : Except Failure Command) : Except Failure Command :=
  (r.map bare).mapError Failure.bare

variable {text text' : String} {location : Option Location} {first : List Char} {operands : List (List Char)}

/-- The same reading applies to words in other case. -/
theorem Reading.recased {words words' : List (List Char)} {r : Except Failure Command}
    (h : Reading text location words r) (hwords : Recased words words') :
    ∃ r', Reading text' location words' r' ∧ verdict r' = verdict r := by
  cases h with
  | push hfirst hs hn hsmall =>
    obtain ⟨first', segment', rfl, hkey, hsegment⟩ := hwords.access_inv
    exact ⟨_, .push (hkey.trans hfirst) (hsegment.trans hs) hn hsmall, rfl⟩
  | pop hfirst hs hn hconstant =>
    obtain ⟨first', segment', rfl, hkey, hsegment⟩ := hwords.access_inv
    exact ⟨_, .pop (hkey.trans hfirst) (hsegment.trans hs) hn hconstant, rfl⟩
  | arithmetic hfirst =>
    cases hwords with
    | keyword hletters => exact ⟨_, .arithmetic ((key_eq hletters).trans hfirst), rfl⟩
  | unsupported hfirst =>
    obtain ⟨first', operands', rfl, hkey, -⟩ := hwords.cons_inv
    exact ⟨_, .unsupported (hkey.trans hfirst), rfl⟩
  | unrecognized hfirst =>
    obtain ⟨first', operands', rfl, hkey, -⟩ := hwords.cons_inv
    refine ⟨_, .unrecognized ?_, rfl⟩
    rwa [Unknown, hkey]
  | unknownSegment hfirst hunknown =>
    obtain ⟨first', segment', rfl, hkey, hsegment⟩ := hwords.access_inv
    exact ⟨_, .unknownSegment (hkey.trans hfirst) fun s => hsegment ▸ hunknown s, rfl⟩
  | tooLong hfirst hs hdigits hlength =>
    obtain ⟨first', segment', rfl, hkey, hsegment⟩ := hwords.access_inv
    exact ⟨_, .tooLong (hkey.trans hfirst) (hsegment.trans hs) hdigits hlength, rfl⟩
  | misused h => exact ⟨_, .misused (h.recased hwords), rfl⟩

theorem verdict_respelled {words' : List (List Char)} (hwords : Text.words text.toList = first :: operands)
    (hspaced : Text.Spaced words' text'.toList) (hrecased : Recased (first :: operands) words') :
    verdict (classify text' location) = verdict (classify text location) := by
  have hread : Reading text location (first :: operands) (classify text location) := reading_classify hwords
  obtain ⟨r', hread', hverdict⟩ := hread.recased hrecased
  obtain ⟨first', operands', rfl, -⟩ := hrecased.cons_inv
  rw [(classify_eq_iff hspaced.words_eq).2 hread', hverdict]

/-! ## The readings one by one -/

theorem access_iff : (∃ isPush, key first = accessWord isPush) ↔ key first = "push" ∨ key first = "pop" := by
  simp [accessWord, or_comm]

theorem reading_push_iff {s : Segment} {n : Nat} : Reading text location (first :: operands) (.ok (.push s n)) ↔
    key first = "push" ∧ ∃ segment digits, operands = [segment, digits] ∧ key segment = s.word ∧ Denotes digits n ∧
      (s = .constant → n < 32768) := by
  constructor
  · intro h
    cases h with
    | push hfirst hs hn hsmall => exact ⟨hfirst, _, _, rfl, hs, hn, hsmall⟩
  · rintro ⟨hfirst, segment, digits, rfl, hs, hn, hsmall⟩
    exact .push hfirst hs hn hsmall

theorem reading_pop_iff {s : Segment} {n : Nat} : Reading text location (first :: operands) (.ok (.pop s n)) ↔
    key first = "pop" ∧ ∃ segment digits, operands = [segment, digits] ∧ key segment = s.word ∧ Denotes digits n ∧
      s ≠ .constant := by
  constructor
  · intro h
    cases h with
    | pop hfirst hs hn hconstant => exact ⟨hfirst, _, _, rfl, hs, hn, hconstant⟩
  · rintro ⟨hfirst, segment, digits, rfl, hs, hn, hconstant⟩
    exact .pop hfirst hs hn hconstant

theorem reading_arithmetic_iff {o : Operation} :
    Reading text location (first :: operands) (.ok (.arithmetic o)) ↔ key first = o.word ∧ operands = [] := by
  constructor
  · intro h
    cases h with
    | arithmetic hfirst => exact ⟨hfirst, rfl⟩
  · rintro ⟨hfirst, rfl⟩
    exact .arithmetic hfirst

theorem reading_unsupported_iff {f : Flow} {quoted : String} :
    Reading text location (first :: operands) (.ok (.unsupported f quoted)) ↔ key first = f.word ∧ quoted = text := by
  constructor
  · intro h
    cases h with
    | unsupported hfirst => exact ⟨hfirst, rfl⟩
  · rintro ⟨hfirst, rfl⟩
    exact .unsupported hfirst

theorem reading_unrecognized_iff {quoted : String} :
    Reading text location (first :: operands) (.ok (.unrecognized quoted)) ↔ Unknown first ∧ quoted = text := by
  constructor
  · intro h
    cases h with
    | unrecognized hfirst => exact ⟨hfirst, rfl⟩
  · rintro ⟨hfirst, rfl⟩
    exact .unrecognized hfirst

theorem reading_unknownSegment_iff {name : String} :
    Reading text location (first :: operands) (.error (Cause.at (.unknownSegment name) location)) ↔
      (key first = "push" ∨ key first = "pop") ∧ ∃ segment offset, operands = [segment, offset] ∧
        (∀ s : Segment, key segment ≠ s.word) ∧ name = String.ofList segment := by
  rw [← access_iff]
  constructor
  · intro h
    cases h with
    | unknownSegment hfirst hsegment => exact ⟨⟨_, hfirst⟩, _, _, rfl, hsegment, rfl⟩
  · rintro ⟨⟨isPush, hfirst⟩, segment, offset, rfl, hsegment, rfl⟩
    exact .unknownSegment hfirst hsegment

theorem reading_tooLong_iff {count : Nat} :
    Reading text location (first :: operands) (.error (.numeral (.tooLong count))) ↔
      (key first = "push" ∨ key first = "pop") ∧ ∃ segment digits, operands = [segment, digits] ∧
        (∃ s : Segment, key segment = s.word) ∧ Instruction.Literal digits ∧ 4300 < digits.length ∧
        count = digits.length := by
  rw [← access_iff]
  constructor
  · intro h
    cases h with
    | tooLong hfirst hs hdigits hlength => exact ⟨⟨_, hfirst⟩, _, _, rfl, ⟨_, hs⟩, hdigits, hlength, rfl⟩
  · rintro ⟨⟨isPush, hfirst⟩, segment, digits, rfl, ⟨s, hs⟩, hdigits, hlength, rfl⟩
    exact .tooLong hfirst hs hdigits hlength

theorem reading_misused_iff {reason : String} :
    Reading text location (first :: operands) (.error (Cause.at (.invalidOperands text reason) location)) ↔
      Misused (first :: operands) reason := by
  constructor
  · intro h
    cases h with
    | misused h => exact h
  · exact .misused

/-- There are three ways to be refused. -/
theorem Reading.error_cases {words : List (List Char)} {e : Failure} (h : Reading text location words (.error e)) :
    (∃ name, e = Cause.at (.unknownSegment name) location) ∨ (∃ count, e = .numeral (.tooLong count)) ∨
      ∃ reason, e = Cause.at (.invalidOperands text reason) location := by
  cases h with
  | unknownSegment => exact .inl ⟨_, rfl⟩
  | tooLong => exact .inr (.inl ⟨_, rfl⟩)
  | misused => exact .inr (.inr ⟨_, rfl⟩)

/-- **Classification decides exactly the grammar of commands.** A text that is not blank has a first
word. It is access to a segment, arithmetic or a command that is not supported if and only if its words
say so, and unrecognized if and only if its first word is not known. It is refused for a segment that
is not known, for an offset with too many digits or for operands that do not fit, exactly where that
is the case, and for nothing else. Other blanks, and other case in the keyword and in the name of the
segment, change nothing but what is quoted. -/
theorem classify_decides_commands (text : String) (location : Option Location)
    (h : ∃ c ∈ text.toList, Text.isBlank c = false) :
    ∃ first operands, Text.words text.toList = first :: operands ∧ Text.Spaced (first :: operands) text.toList ∧
    (∀ s n, classify text location = .ok (.push s n) ↔ key first = "push" ∧ ∃ segment digits,
      operands = [segment, digits] ∧ key segment = s.word ∧ Denotes digits n ∧ (s = .constant → n < 32768)) ∧
    (∀ s n, classify text location = .ok (.pop s n) ↔ key first = "pop" ∧ ∃ segment digits,
      operands = [segment, digits] ∧ key segment = s.word ∧ Denotes digits n ∧ s ≠ .constant) ∧
    (∀ o, classify text location = .ok (.arithmetic o) ↔ key first = o.word ∧ operands = []) ∧
    (∀ f quoted, classify text location = .ok (.unsupported f quoted) ↔ key first = f.word ∧ quoted = text) ∧
    (∀ quoted, classify text location = .ok (.unrecognized quoted) ↔ Unknown first ∧ quoted = text) ∧
    (∀ name, classify text location = .error (Cause.at (.unknownSegment name) location) ↔
      (key first = "push" ∨ key first = "pop") ∧ ∃ segment offset, operands = [segment, offset] ∧
        (∀ s : Segment, key segment ≠ s.word) ∧ name = String.ofList segment) ∧
    (∀ count, classify text location = .error (.numeral (.tooLong count)) ↔
      (key first = "push" ∨ key first = "pop") ∧ ∃ segment digits, operands = [segment, digits] ∧
        (∃ s : Segment, key segment = s.word) ∧ Instruction.Literal digits ∧ 4300 < digits.length ∧
        count = digits.length) ∧
    (∀ reason, classify text location = .error (Cause.at (.invalidOperands text reason) location) ↔
      Misused (first :: operands) reason) ∧
    (∀ e, classify text location = .error e → (∃ name, e = Cause.at (.unknownSegment name) location) ∨
      (∃ count, e = .numeral (.tooLong count)) ∨ ∃ reason, e = Cause.at (.invalidOperands text reason) location) ∧
    (∀ text' words', Text.Spaced words' text'.toList → Recased (first :: operands) words' →
      verdict (classify text' location) = verdict (classify text location)) := by
  obtain ⟨first, operands, hwords⟩ := List.exists_cons_of_ne_nil (Text.words_ne_nil h)
  refine ⟨first, operands, hwords, Text.words_eq_iff.1 hwords, ?_⟩
  simp only [classify_eq_iff hwords]
  exact ⟨fun s n => reading_push_iff, fun s n => reading_pop_iff, fun o => reading_arithmetic_iff,
    fun f quoted => reading_unsupported_iff, fun quoted => reading_unrecognized_iff,
    fun name => reading_unknownSegment_iff, fun count => reading_tooLong_iff, fun reason => reading_misused_iff,
    fun e => Reading.error_cases, fun text' words' hspaced hrecased => verdict_respelled hwords hspaced hrecased⟩

/-- Capitals and small letters, blanks of several kinds and zeros before the number, and the same
command as it is usually written. -/
theorem classify_decides_commands_spelled :
    (∃ c ∈ "\tPuSH  CONSTANT\u00a0007 ".toList, Text.isBlank c = false) ∧
    Recased ["PuSH".toList, "CONSTANT".toList, "007".toList] ["push".toList, "constant".toList, "007".toList] ∧
    classify "\tPuSH  CONSTANT\u00a0007 " none = .ok (.push .constant 7) ∧
    verdict (classify "push constant 007" none) = .ok (.push .constant 7) := by
  have hfilled : ∃ c ∈ "\tPuSH  CONSTANT\u00a0007 ".toList, Text.isBlank c = false := ⟨'P', by decide, by decide⟩
  have hrecased : Recased ["PuSH".toList, "CONSTANT".toList, "007".toList] ["push".toList, "constant".toList, "007".toList] :=
    .segment (by decide +kernel) (by decide +kernel)
  obtain ⟨first, operands, hwords, -, hpush, -, -, -, -, -, -, -, -, hsame⟩ :=
    classify_decides_commands "\tPuSH  CONSTANT\u00a0007 " none hfilled
  have heval : Text.words "\tPuSH  CONSTANT\u00a0007 ".toList = ["PuSH".toList, "CONSTANT".toList, "007".toList] := by
    decide +kernel
  obtain ⟨rfl, rfl⟩ := List.cons.inj (heval.symm.trans hwords)
  have hread : classify "\tPuSH  CONSTANT\u00a0007 " none = .ok (.push .constant 7) := by
    refine (hpush _ _).2 ⟨by decide +kernel, _, _, rfl, by decide +kernel, ⟨?_, by decide, by decide⟩, fun _ => by decide⟩
    exact Instruction.isNumeral_iff.1 (by decide)
  refine ⟨hfilled, hrecased, hread, ?_⟩
  rw [hsame "push constant 007" _ (Text.words_eq_iff.1 (by decide +kernel)) hrecased, hread]
  rfl

end Command

end HackToolchain
