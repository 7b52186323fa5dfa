import HackToolchain.Proofs.Text
import Mathlib
/-!
The grammar of instructions, said without the parser. An address is a symbol with `@` before it and
blanks around it, a label a name in parentheses, and a compute instruction three parts with `=` and
`;` between them, of which each can be missing. Every text is read as exactly what it is: the parts
of a compute instruction can be told from its text, whatever letters they share.
-/

namespace HackToolchain

namespace Text

/-- A run of characters ends where one of another kind follows. -/
theorem takeWhile_stop {p : Char → Bool} {xs ys : List Char} (hxs : ∀ c ∈ xs, p c = true)
    (hys : ∀ c ∈ ys.head?, p c = false) : (xs ++ ys).takeWhile p = xs ∧ (xs ++ ys).dropWhile p = ys := by
  rw [List.takeWhile_append_of_pos hxs, List.dropWhile_append_of_pos hxs]
  cases ys with
  | nil => simp
  | cons y ys => simp [hys y rfl]

/-! ## Blanks around a text -/

/-- Nothing but blanks. -/
def Blank (cs : List Char) : Prop :=
  ∀ c ∈ cs, isBlank c = true

/-- A text is what is left of it when it is trimmed, with blanks around it. -/
theorem exists_blank_trim (cs : List Char) :
    ∃ before after, cs = before ++ trim cs ++ after ∧ Blank before ∧ Blank after := by
  refine ⟨cs.takeWhile isBlank, (cs.dropWhile isBlank).rtakeWhile isBlank, ?_, ?_, ?_⟩
  · have hrest : trim cs ++ (cs.dropWhile isBlank).rtakeWhile isBlank = cs.dropWhile isBlank :=
      List.rdropWhile_append_rtakeWhile
    rw [List.append_assoc, hrest, List.takeWhile_append_dropWhile]
  · exact fun c hc => List.mem_takeWhile_imp hc
  · exact fun c hc => List.mem_rtakeWhile_imp hc

/-- Neither begins nor ends with a blank. -/
def Trimmed (cs : List Char) : Prop :=
  (∀ c ∈ cs.head?, isBlank c = false) ∧ ∀ c ∈ cs.getLast?, isBlank c = false

theorem Trimmed.of_forall {cs : List Char} (h : ∀ c ∈ cs, isBlank c = false) : Trimmed cs :=
  ⟨fun c hc => h c (List.mem_of_mem_head? hc), fun c hc => h c (List.mem_of_mem_getLast? hc)⟩

theorem trim_append {before word after : List Char} (hb : Blank before) (ha : Blank after) (hword : Trimmed word) :
    trim (before ++ word ++ after) = word := by
  have hleft : (before ++ word ++ after).dropWhile isBlank = (word ++ after).dropWhile isBlank := by
    rw [List.append_assoc, List.dropWhile_append_of_pos hb]
  rw [trim, trimBoth, hleft]
  cases word with
  | nil =>
    rw [List.nil_append, List.dropWhile_eq_nil_iff.2 ha]
    rfl
  | cons c cs =>
    have hright : Blank after.reverse := fun c hc => ha c (List.mem_reverse.1 hc)
    have hlast : (c :: cs).reverse.dropWhile isBlank = (c :: cs).reverse := by
      have hhead := hword.2
      rw [← List.head?_reverse] at hhead
      generalize (c :: cs).reverse = ds at hhead
      cases ds with
      | nil => rfl
      | cons d ds => exact List.dropWhile_cons_of_neg (by simp [hhead d rfl])
    rw [List.cons_append, List.dropWhile_cons_of_neg (by simp [hword.1 c rfl]), ← List.cons_append, List.reverse_append,
      List.dropWhile_append_of_pos hright, hlast, List.reverse_reverse]

theorem blank_iff {cs : List Char} : Blank cs ↔ trim cs = [] := by
  constructor
  · intro h
    simpa using trim_append h (List.forall_mem_nil _) (.of_forall (List.forall_mem_nil _))
  · intro h
    obtain ⟨before, after, hcs, hb, ha⟩ := exists_blank_trim cs
    rw [hcs, h, List.append_nil]
    exact List.forall_mem_append.2 ⟨hb, ha⟩

end Text

namespace Instruction

/-! ## The grammar -/

def Digit (c : Char) : Prop :=
  '0' ≤ c ∧ c ≤ '9'

def Capital (c : Char) : Prop :=
  'A' ≤ c ∧ c ≤ 'Z'

/-- Letters, and four signs that count as letters. -/
def SymbolStart (c : Char) : Prop :=
  Capital c ∨ ('a' ≤ c ∧ c ≤ 'z') ∨ c ∈ ['_', '.', '$', ':']

/-- The names of symbols: a letter, then letters and digits. -/
def SymbolName (cs : List Char) : Prop :=
  ∃ c rest, cs = c :: rest ∧ SymbolStart c ∧ ∀ d ∈ rest, SymbolStart d ∨ Digit d

/-- Numbers that are written out: one or more digits. -/
def Literal (cs : List Char) : Prop :=
  cs ≠ [] ∧ ∀ c ∈ cs, Digit c

def registers : List Char :=
  ['A', 'D', 'M']

def terms : List Char :=
  ['0', '1', 'A', 'D', 'M']

def operators : List Char :=
  ['-', '+', '&', '|']

def signs : List Char :=
  ['-', '!']

/-- A term, or two with an operator between them. -/
def Sum (cs : List Char) : Prop :=
  (∃ x ∈ terms, cs = [x]) ∨ ∃ x ∈ terms, ∃ op ∈ operators, ∃ y ∈ terms, cs = [x, op, y]

/-- A sum, with a sign before it or without. -/
def Expression (cs : List Char) : Prop :=
  Sum cs ∨ ∃ sign ∈ signs, ∃ rest, cs = sign :: rest ∧ Sum rest

namespace Parts

/-- The parts as they are written. An empty part is left out, with the sign that belongs to it. -/
def text (p : Parts) : List Char :=
  (if p.dest = [] then [] else p.dest ++ ['=']) ++ p.computation ++ (if p.jump = [] then [] else ';' :: p.jump)

/-- What the three parts may be; each may be empty. -/
structure Shaped (p : Parts) : Prop where
  dest : p.dest.length ≤ 3 ∧ ∀ c ∈ p.dest, c ∈ registers
  computation : p.computation = [] ∨ Expression p.computation
  jump : ∀ c ∈ p.jump, Capital c

/-- There is something to compute, or somewhere to jump. -/
def Useful (p : Parts) : Prop :=
  p.computation ≠ [] ∨ p.jump ≠ []

end Parts

/-- The text of an address instruction: `@` and a symbol or a literal, with blanks around it. -/
def AddressText (cs symbol : List Char) : Prop :=
  ∃ before after, cs = '@' :: (before ++ symbol ++ after) ∧ Text.Blank before ∧ Text.Blank after ∧
    (Literal symbol ∨ SymbolName symbol)

/-- The text of a label: a name in parentheses, and no blanks. -/
def LabelText (cs name : List Char) : Prop :=
  cs = '(' :: (name ++ [')']) ∧ SymbolName name

/-- The text of a compute instruction, which has the registers in any order, each once. -/
def ComputeText (cs : List Char) (dest : Destination) (computation jump : List Char) : Prop :=
  ∃ p : Parts, p.Shaped ∧ p.Useful ∧ p.text = cs ∧ p.dest.Perm dest.letters ∧ p.computation = computation ∧
    p.jump = jump

/-- A text that looks like an instruction and is none, and what is wrong with it. -/
inductive Malformed : List Char → String → Prop
  | missingSymbol {rest : List Char} : Text.Blank rest → Malformed ('@' :: rest) missingSymbol
  | badSymbol {rest : List Char} : ¬ Text.Blank rest → (∀ symbol, ¬ AddressText ('@' :: rest) symbol) →
    Malformed ('@' :: rest) badSymbol
  | badLabel {rest : List Char} : (∀ name, ¬ LabelText ('(' :: rest) name) → Malformed ('(' :: rest) badLabel
  | nothingToCompute {p : Parts} : p.Shaped → ¬ p.Useful → Malformed p.text nothingToCompute
  | repeatedRegisters {p : Parts} : p.Shaped → p.Useful → ¬ p.dest.Nodup → Malformed p.text (repeatedRegisters p.dest)

/-! ## Classes of characters -/

theorem isDigit_iff {c : Char} : c.isDigit = true ↔ Digit c := by
  simp [Char.isDigit, Digit, Char.le_def]

theorem isUpper_iff {c : Char} : c.isUpper = true ↔ Capital c := by
  simp [Char.isUpper, Capital, Char.le_def]

theorem isSymbolStart_iff {c : Char} : isSymbolStart c = true ↔ SymbolStart c := by
  simp [isSymbolStart, SymbolStart, Char.isAlpha, Char.isLower, isUpper_iff, Char.le_def, or_assoc]

theorem isSymbolName_iff {cs : List Char} : isSymbolName cs = true ↔ SymbolName cs := by
  cases cs with
  | nil => simp [isSymbolName, SymbolName]
  | cons c cs => simp [isSymbolName, SymbolName, isSymbolChar, isSymbolStart_iff, isDigit_iff]

theorem isNumeral_iff {cs : List Char} : Text.isNumeral cs = true ↔ Literal cs := by
  simp [Text.isNumeral, Literal, isDigit_iff]

theorem isRegister_iff {c : Char} : isRegister c = true ↔ c ∈ registers := by
  simp [isRegister, registers]
  grind

theorem isTerm_iff {c : Char} : isTerm c = true ↔ c ∈ terms := by
  simp [isTerm, isRegister, terms]
  grind

theorem isBinary_iff {c : Char} : isBinary c = true ↔ c ∈ operators := by
  simp [isBinary, operators, or_assoc]

theorem isUnary_iff {c : Char} : isUnary c = true ↔ c ∈ signs := by
  simp [isUnary, signs]

theorem isSum_iff {cs : List Char} : isSum cs = true ↔ Sum cs := by
  rcases cs with _ | ⟨x, _ | ⟨op, _ | ⟨y, _ | ⟨z, cs⟩⟩⟩⟩
  · simp [isSum, Sum]
  · simp [isSum, Sum, isTerm_iff]
  · simp [isSum, Sum]
  · simp [isSum, Sum, isTerm_iff, isBinary_iff]
    grind
  · simp [isSum, Sum]

theorem isComputation_iff {cs : List Char} : isComputation cs = true ↔ Expression cs := by
  cases cs with
  | nil => simp [isComputation, Expression, Sum]
  | cons c cs =>
    simp [isComputation, Expression, isSum_iff, isUnary_iff]

theorem isJump_iff {cs : List Char} : isJump cs = true ↔ cs ≠ [] ∧ ∀ c ∈ cs, Capital c := by
  simp [isJump, isUpper_iff]

theorem hasRepetition_iff {cs : List Char} : hasRepetition cs = true ↔ ¬ cs.Nodup := by
  induction cs with
  | nil => simp [hasRepetition]
  | cons c cs ih => simp [hasRepetition, ih]; grind

/-! ## The parts of a compute instruction -/

theorem Expression.mem {cs : List Char} (h : Expression cs) : ∀ c ∈ cs, c ∈ terms ++ operators ++ signs := by
  have hsum : ∀ {cs : List Char}, Sum cs → ∀ c ∈ cs, c ∈ terms ++ operators ++ signs := by
    rintro _ (⟨x, hx, rfl⟩ | ⟨x, hx, op, hop, y, hy, rfl⟩)
    · simp [hx]
    · simp [hx, hop, hy]
  rcases h with h | ⟨sign, hsign, rest, rfl, h⟩
  · exact hsum h
  · exact List.forall_mem_cons.2 ⟨by simp [hsign], hsum h⟩

namespace Parts

variable {p : Parts} {cs dest : List Char}

/-- What follows the computation. -/
def jumpText (p : Parts) : List Char :=
  if p.jump = [] then [] else ';' :: p.jump

theorem afterDest?_eq_some_iff : afterDest? dest cs = some p ↔
    p.dest = dest ∧ (p.computation = [] ∨ Expression p.computation) ∧ (∀ c ∈ p.jump, Capital c) ∧
      cs = p.computation ++ p.jumpText := by
  constructor
  · intro h
    unfold afterDest? at h
    dsimp only at h
    split at h
    case isFalse => cases h
    next hcomputation =>
    rw [Bool.or_eq_true, List.isEmpty_iff, isComputation_iff] at hcomputation
    have hcs := List.takeWhile_append_dropWhile (p := (· != ';')) (l := cs)
    split at h
    next hrest =>
      cases h
      rw [hrest] at hcs
      exact ⟨rfl, hcomputation, List.forall_mem_nil _, hcs.symm⟩
    next c jump hrest =>
      split at h
      case isFalse => cases h
      next hjump =>
      cases h
      rw [isJump_iff] at hjump
      have hc : c = ';' := by
        have := List.head_dropWhile_not (· != ';') (l := cs) (by simp [hrest])
        simpa [hrest] using this
      rw [hrest, hc] at hcs
      refine ⟨rfl, hcomputation, hjump.2, ?_⟩
      rw [jumpText, if_neg hjump.1]
      exact hcs.symm
  · rintro ⟨rfl, hcomputation, hjump, rfl⟩
    have hplain : ∀ c ∈ p.computation, (c != ';') = true := by
      rcases hcomputation with hempty | hexpression
      · simp [hempty]
      · have hall : ∀ c ∈ terms ++ operators ++ signs, (c != ';') = true := by simp [terms, operators, signs]
        exact fun c hc => hall c (hexpression.mem c hc)
    have hstop : ∀ c ∈ p.jumpText.head?, (c != ';') = false := by
      unfold jumpText
      split <;> simp
    have hshape : (p.computation.isEmpty || isComputation p.computation) = true := by
      rwa [Bool.or_eq_true, List.isEmpty_iff, isComputation_iff]
    obtain ⟨htake, hdrop⟩ := Text.takeWhile_stop hplain hstop
    unfold afterDest?
    rw [htake, hdrop]
    dsimp only
    rw [if_pos hshape]
    obtain ⟨dest, computation, jump⟩ := p
    cases jump with
    | nil => rfl
    | cons c jump => exact if_pos (isJump_iff.2 ⟨List.cons_ne_nil _ _, hjump⟩)

theorem text_eq (p : Parts) : p.text = (if p.dest = [] then [] else p.dest ++ ['=']) ++ (p.computation ++ p.jumpText) :=
  List.append_assoc _ _ _

/-- The characters of shaped parts. An equals sign stands there only after a destination. -/
theorem Shaped.mem_text (h : p.Shaped) {c : Char} (hc : c ∈ p.text) :
    (c = '=' ∧ p.dest ≠ []) ∨ c = ';' ∨ c ∈ terms ++ operators ++ signs ∨ Capital c := by
  rw [text_eq, List.mem_append, List.mem_append] at hc
  rcases hc with hc | hc | hc
  · split at hc
    · cases hc
    next hdest =>
    rcases List.mem_append.1 hc with hc | hc
    · have hall : ∀ c ∈ registers, c ∈ terms ++ operators ++ signs := by simp [registers, terms]
      exact .inr (.inr (.inl (hall c (h.dest.2 c hc))))
    · exact .inl ⟨List.mem_singleton.1 hc, hdest⟩
  · rcases h.computation with hempty | hexpression
    · rw [hempty] at hc
      cases hc
    · exact .inr (.inr (.inl (hexpression.mem c hc)))
  · unfold jumpText at hc
    split at hc
    · cases hc
    rcases List.mem_cons.1 hc with hc | hc
    · exact .inr (.inl hc)
    · exact .inr (.inr (.inr (h.jump c hc)))

theorem Shaped.equals_not_mem (h : p.Shaped) (hdest : p.dest = []) : '=' ∉ p.text := by
  intro hc
  rcases h.mem_text hc with ⟨-, hne⟩ | hc | hc | hc
  · exact hne hdest
  · cases hc
  · revert hc
    decide
  · revert hc
    unfold Capital
    decide

/-- **Shaped parts are told from their text.** -/
theorem ofText?_eq_some_iff : ofText? cs = some p ↔ p.Shaped ∧ p.text = cs := by
  constructor
  · intro h
    unfold ofText? at h
    dsimp only at h
    split at h
    next rest hrest =>
      split at h
      case isFalse => cases h
      next hlength =>
      rw [Bool.and_eq_true, decide_eq_true_eq, decide_eq_true_eq] at hlength
      obtain ⟨hdest, hcomputation, hjump, rfl⟩ := afterDest?_eq_some_iff.1 h
      have hregisters : ∀ c ∈ p.dest, c ∈ registers := fun c hc => isRegister_iff.1 (List.mem_takeWhile_imp (hdest ▸ hc))
      have hne : p.dest ≠ [] := by
        rw [hdest]
        exact List.ne_nil_of_length_pos hlength.1
      refine ⟨⟨⟨hdest ▸ hlength.2, hregisters⟩, hcomputation, hjump⟩, ?_⟩
      rw [text_eq, if_neg hne, hdest, List.append_assoc, List.singleton_append, ← hrest,
        List.takeWhile_append_dropWhile]
    next =>
      obtain ⟨hdest, hcomputation, hjump, rfl⟩ := afterDest?_eq_some_iff.1 h
      refine ⟨⟨by simp [hdest], hcomputation, hjump⟩, ?_⟩
      rw [text_eq, if_pos hdest, List.nil_append]
  · rintro ⟨h, rfl⟩
    have hrest := afterDest?_eq_some_iff.2 ⟨rfl, h.computation, h.jump, rfl⟩
    unfold ofText?
    dsimp only
    by_cases hdest : p.dest = []
    · have hno : '=' ∉ p.text.dropWhile isRegister :=
        fun hc => h.equals_not_mem hdest (List.dropWhile_subset _ hc)
      split
      next heq => simp [heq] at hno
      · rw [text_eq, if_pos hdest, List.nil_append, ← hdest]
        exact hrest
    · have hregisters : ∀ c ∈ p.dest, isRegister c = true := fun c hc => isRegister_iff.2 (h.dest.2 c hc)
      have htext : p.text = p.dest ++ '=' :: (p.computation ++ p.jumpText) := by
        rw [text_eq, if_neg hdest, List.append_assoc]
        rfl
      have hstop : ∀ c ∈ ('=' :: (p.computation ++ p.jumpText)).head?, isRegister c = false := by simp [isRegister]
      obtain ⟨htake, hdrop⟩ := Text.takeWhile_stop hregisters hstop
      have hlength : (decide (1 ≤ p.dest.length) && decide (p.dest.length ≤ 3)) = true := by
        simp [h.dest.1, Nat.one_le_iff_ne_zero, hdest]
      rw [htext, htake, hdrop]
      exact (if_pos hlength).trans hrest

/-- Shaped parts with one text are the same. -/
theorem Shaped.unique {q : Parts} (hp : p.Shaped) (hq : q.Shaped) (h : p.text = q.text) : p = q := by
  have hread := ofText?_eq_some_iff.2 ⟨hp, h⟩
  rw [ofText?_eq_some_iff.2 ⟨hq, rfl⟩] at hread
  exact (Option.some.inj hread).symm

theorem Shaped.head_ne (h : p.Shaped) {c : Char} {rest : List Char} (htext : p.text = c :: rest) :
    c ≠ '@' ∧ c ≠ '(' := by
  have hmem : c ∈ p.text := by simp [htext]
  rcases h.mem_text hmem with ⟨rfl, -⟩ | rfl | hc | hc
  · decide
  · decide
  · have hall : ∀ c ∈ terms ++ operators ++ signs, c ≠ '@' ∧ c ≠ '(' := by simp [terms, operators, signs]
    exact hall c hc
  · constructor
    · rintro rfl
      exact absurd hc.1 (by decide)
    · rintro rfl
      exact absurd hc.1 (by decide)

end Parts

/-! ## Destinations -/

theorem mem_letters {dest : Destination} {c : Char} :
    c ∈ dest.letters ↔ c = 'A' ∧ dest.a = true ∨ c = 'D' ∧ dest.d = true ∨ c = 'M' ∧ dest.m = true := by
  obtain ⟨a, d, m⟩ := dest
  cases a <;> cases d <;> cases m <;> simp [Destination.letters]

theorem nodup_letters (dest : Destination) : dest.letters.Nodup := by
  obtain ⟨a, d, m⟩ := dest
  cases a <;> cases d <;> cases m <;> decide

/-- Letters without repetition are the letters of the destination that they name, in some order. -/
theorem perm_letters_iff {cs : List Char} {dest : Destination} (hcs : ∀ c ∈ cs, c ∈ registers) :
    cs.Perm dest.letters ↔ cs.Nodup ∧ Destination.ofLetters cs = dest := by
  constructor
  · intro h
    refine ⟨h.nodup_iff.2 (nodup_letters dest), ?_⟩
    obtain ⟨a, d, m⟩ := dest
    simp [Destination.ofLetters, h.mem_iff, mem_letters]
  · rintro ⟨hnodup, rfl⟩
    refine (List.perm_ext_iff_of_nodup hnodup (nodup_letters _)).2 fun c => ?_
    simp only [registers, List.mem_cons, List.not_mem_nil, or_false] at hcs
    rw [mem_letters]
    simp only [Destination.ofLetters, List.contains_iff_mem]
    grind

/-! ## What a text is read as -/

/-- What the grammar makes of a text. -/
inductive Reading (text : String) : Except String Instruction → Prop
  | address {symbol : String} : AddressText text.toList symbol.toList → Reading text (.ok (.address symbol))
  | label {name : String} : LabelText text.toList name.toList → Reading text (.ok (.label name))
  | compute {dest : Destination} {computation jump : String} :
    ComputeText text.toList dest computation.toList jump.toList → Reading text (.ok (.compute dest computation jump))
  | malformed {reason : String} : Malformed text.toList reason → Reading text (.error reason)
  | unrecognized : (∀ rest, text.toList ≠ '@' :: rest) → (∀ rest, text.toList ≠ '(' :: rest) →
    (∀ p : Parts, p.Shaped → p.text ≠ text.toList) → Reading text (.ok (.unrecognized text))

variable {text : String} {rest : List Char} {p : Parts}

theorem parse_address (h : text.toList = '@' :: rest) :
    parse text =
      if (Text.trim rest).isEmpty then .error missingSymbol
      else if Text.isNumeral (Text.trim rest) || isSymbolName (Text.trim rest) then
        .ok (.address (String.ofList (Text.trim rest)))
      else .error badSymbol := by
  rw [parse, h]
  rfl

theorem parse_label (h : text.toList = '(' :: rest) :
    parse text =
      if rest.getLast? = some ')' && isSymbolName rest.dropLast then .ok (.label (String.ofList rest.dropLast))
      else .error badLabel := by
  rw [parse, h]
  rfl

theorem parse_parts (hp : p.Shaped) (h : p.text = text.toList) :
    parse text =
      if p.computation.isEmpty && p.jump.isEmpty then .error nothingToCompute
      else if hasRepetition p.dest then .error (repeatedRegisters p.dest)
      else .ok (.compute (.ofLetters p.dest) (String.ofList p.computation) (String.ofList p.jump)) := by
  unfold parse
  split
  next rest htext => exact absurd rfl (hp.head_ne (h.trans htext)).1
  next rest htext => exact absurd rfl (hp.head_ne (h.trans htext)).2
  · rw [Parts.ofText?_eq_some_iff.2 ⟨hp, h⟩]

theorem parse_unrecognized (haddress : ∀ rest, text.toList ≠ '@' :: rest) (hlabel : ∀ rest, text.toList ≠ '(' :: rest)
    (hparts : ∀ p : Parts, p.Shaped → p.text ≠ text.toList) : parse text = .ok (.unrecognized text) := by
  have hnone : Parts.ofText? text.toList = none := by
    rw [Option.eq_none_iff_forall_ne_some]
    intro p hp
    obtain ⟨hshaped, htext⟩ := Parts.ofText?_eq_some_iff.1 hp
    exact hparts p hshaped htext
  unfold parse
  split
  next rest htext => exact absurd htext (haddress rest)
  next rest htext => exact absurd htext (hlabel rest)
  · rw [hnone]

theorem SymbolName.ne_nil {cs : List Char} (h : SymbolName cs) : cs ≠ [] := by
  obtain ⟨c, rest, rfl, -⟩ := h
  exact List.cons_ne_nil c rest

theorem isSymbolChar_of_symbol {symbol : List Char} (h : Literal symbol ∨ SymbolName symbol) :
    ∀ c ∈ symbol, isSymbolChar c = true := by
  rcases h with h | h
  · exact fun c hc => isSymbolChar_of_isDigit (isDigit_iff.2 (h.2 c hc))
  · exact isSymbolChar_of_isSymbolName (isSymbolName_iff.2 h)

theorem isBlank_of_symbol {symbol : List Char} (h : Literal symbol ∨ SymbolName symbol) :
    ∀ c ∈ symbol, Text.isBlank c = false :=
  fun c hc => isBlank_of_isPlain (isPlain_of_isSymbolChar (isSymbolChar_of_symbol h c hc))

theorem addressText_iff {symbol : List Char} :
    AddressText ('@' :: rest) symbol ↔ Text.trim rest = symbol ∧ (Literal symbol ∨ SymbolName symbol) := by
  constructor
  · rintro ⟨before, after, hrest, hb, ha, hsymbol⟩
    rw [(List.cons.inj hrest).2]
    exact ⟨Text.trim_append hb ha (.of_forall (isBlank_of_symbol hsymbol)), hsymbol⟩
  · rintro ⟨rfl, hsymbol⟩
    obtain ⟨before, after, hrest, hb, ha⟩ := Text.exists_blank_trim rest
    exact ⟨before, after, congrArg _ hrest, hb, ha, hsymbol⟩

theorem labelText_iff {name : List Char} :
    LabelText ('(' :: rest) name ↔ (rest.getLast? = some ')' ∧ rest.dropLast = name) ∧ SymbolName name := by
  refine and_congr_left fun _ => ?_
  constructor
  · intro h
    rw [(List.cons.inj h).2]
    simp
  · rintro ⟨hlast, rfl⟩
    rw [List.dropLast_append_getLast? ')' hlast]

theorem reading_address (h : text.toList = '@' :: rest) : Reading text (parse text) := by
  rw [parse_address h]
  split
  next hempty =>
    refine .malformed ?_
    rw [h]
    exact .missingSymbol (Text.blank_iff.2 (List.isEmpty_iff.1 hempty))
  next hempty =>
  split
  next hsymbol =>
    refine .address ?_
    rw [Bool.or_eq_true, isNumeral_iff, isSymbolName_iff] at hsymbol
    rw [h, String.toList_ofList]
    exact addressText_iff.2 ⟨rfl, hsymbol⟩
  next hsymbol =>
    refine .malformed ?_
    rw [Bool.or_eq_true, isNumeral_iff, isSymbolName_iff] at hsymbol
    rw [h]
    refine .badSymbol (fun hblank => hempty (List.isEmpty_iff.2 (Text.blank_iff.1 hblank))) fun symbol haddress => ?_
    obtain ⟨rfl, hok⟩ := addressText_iff.1 haddress
    exact hsymbol hok

theorem reading_label (h : text.toList = '(' :: rest) : Reading text (parse text) := by
  rw [parse_label h]
  split
  next hname =>
    refine .label ?_
    rw [Bool.and_eq_true, decide_eq_true_eq, isSymbolName_iff] at hname
    rw [h, String.toList_ofList]
    exact labelText_iff.2 ⟨⟨hname.1, rfl⟩, hname.2⟩
  next hname =>
    refine .malformed ?_
    rw [Bool.and_eq_true, decide_eq_true_eq, isSymbolName_iff] at hname
    rw [h]
    refine .badLabel fun name hlabel => ?_
    obtain ⟨⟨hlast, rfl⟩, hok⟩ := labelText_iff.1 hlabel
    exact hname ⟨hlast, hok⟩

theorem useful_iff : p.Useful ↔ ¬ (p.computation.isEmpty && p.jump.isEmpty) = true := by
  rw [Parts.Useful, Bool.and_eq_true, List.isEmpty_iff, List.isEmpty_iff, not_and_or]

theorem reading_parts (hp : p.Shaped) (h : p.text = text.toList) : Reading text (parse text) := by
  rw [parse_parts hp h]
  split
  next hempty =>
    refine .malformed ?_
    rw [← h]
    exact .nothingToCompute hp fun huseful => useful_iff.1 huseful hempty
  next huseful =>
  split
  next hrepeated =>
    refine .malformed ?_
    rw [← h]
    exact .repeatedRegisters hp (useful_iff.2 huseful) (hasRepetition_iff.1 hrepeated)
  next hrepeated =>
    refine .compute ⟨p, hp, useful_iff.2 huseful, h, ?_, by simp, by simp⟩
    refine (perm_letters_iff hp.dest.2).2 ⟨?_, rfl⟩
    rwa [hasRepetition_iff, not_not] at hrepeated

/-- A text is read as what it is. -/
theorem reading_parse (text : String) : Reading text (parse text) := by
  by_cases haddress : ∃ rest, text.toList = '@' :: rest
  · obtain ⟨rest, h⟩ := haddress
    exact reading_address h
  by_cases hlabel : ∃ rest, text.toList = '(' :: rest
  · obtain ⟨rest, h⟩ := hlabel
    exact reading_label h
  by_cases hparts : ∃ p : Parts, p.Shaped ∧ p.text = text.toList
  · obtain ⟨p, hp, h⟩ := hparts
    exact reading_parts hp h
  simp only [not_exists, not_and] at haddress hlabel hparts
  rw [parse_unrecognized haddress hlabel hparts]
  exact .unrecognized haddress hlabel hparts

theorem parse_of_malformed {reason : String} (h : Malformed text.toList reason) : parse text = .error reason := by
  generalize htext : text.toList = cs at h
  cases h with
  | missingSymbol hblank => rw [parse_address htext, if_pos (List.isEmpty_iff.2 (Text.blank_iff.1 hblank))]
  | badSymbol hblank haddress =>
    rw [parse_address htext, if_neg (fun hempty => hblank (Text.blank_iff.2 (List.isEmpty_iff.1 hempty))), if_neg]
    rw [Bool.or_eq_true, isNumeral_iff, isSymbolName_iff]
    exact fun hok => haddress _ (addressText_iff.2 ⟨rfl, hok⟩)
  | badLabel hlabel =>
    rw [parse_label htext, if_neg]
    rw [Bool.and_eq_true, decide_eq_true_eq, isSymbolName_iff]
    exact fun hok => hlabel _ (labelText_iff.2 ⟨⟨hok.1, rfl⟩, hok.2⟩)
  | nothingToCompute hp huseful =>
    rw [useful_iff, not_not] at huseful
    rw [parse_parts hp htext.symm, if_pos huseful]
  | repeatedRegisters hp huseful hrepeated =>
    rw [parse_parts hp htext.symm, if_neg (useful_iff.1 huseful), if_pos (hasRepetition_iff.2 hrepeated)]

theorem parse_of_addressText {symbol : String} (h : AddressText text.toList symbol.toList) :
    parse text = .ok (.address symbol) := by
  obtain ⟨before, after, htext, hb, ha, hsymbol⟩ := h
  have htrim := Text.trim_append hb ha (.of_forall (isBlank_of_symbol hsymbol))
  have hne : symbol.toList ≠ [] := hsymbol.elim And.left SymbolName.ne_nil
  rw [← isNumeral_iff, ← isSymbolName_iff, ← Bool.or_eq_true] at hsymbol
  rw [parse_address htext, htrim, if_neg (by simpa using hne), if_pos hsymbol, String.ofList_toList]

theorem parse_of_labelText {name : String} (h : LabelText text.toList name.toList) : parse text = .ok (.label name) := by
  obtain ⟨htext, hname⟩ := h
  rw [parse_label htext, if_pos (by simp [isSymbolName_iff, hname]), List.dropLast_concat, String.ofList_toList]

theorem parse_of_computeText {dest : Destination} {computation jump : String}
    (h : ComputeText text.toList dest computation.toList jump.toList) :
    parse text = .ok (.compute dest computation jump) := by
  obtain ⟨p, hp, huseful, htext, hdest, hcomputation, hjump⟩ := h
  obtain ⟨hnodup, rfl⟩ := (perm_letters_iff hp.dest.2).1 hdest
  rw [parse_parts hp htext, if_neg (useful_iff.1 huseful), if_neg (by rwa [hasRepetition_iff, not_not]), hcomputation,
    hjump, String.ofList_toList, String.ofList_toList]

/-- **The parser decides the grammar.** -/
theorem parse_eq_iff {r : Except String Instruction} : parse text = r ↔ Reading text r := by
  constructor
  · rintro rfl
    exact reading_parse text
  · intro h
    cases h with
    | address h => exact parse_of_addressText h
    | label h => exact parse_of_labelText h
    | compute h => exact parse_of_computeText h
    | malformed h => exact parse_of_malformed h
    | unrecognized haddress hlabel hparts => exact parse_unrecognized haddress hlabel hparts

theorem Reading.unique {r r' : Except String Instruction} (h : Reading text r) (h' : Reading text r') : r = r' :=
  (parse_eq_iff.2 h).symm.trans (parse_eq_iff.2 h')

/-- Unrecognized is what is nothing else. -/
theorem reading_unrecognized_iff {other : String} : Reading text (.ok (.unrecognized other)) ↔ other = text ∧
    (∀ symbol, ¬ AddressText text.toList symbol) ∧ (∀ name, ¬ LabelText text.toList name) ∧
    (∀ dest computation jump, ¬ ComputeText text.toList dest computation jump) ∧
    ∀ reason, ¬ Malformed text.toList reason := by
  constructor
  · intro h
    have hother : other = text := by
      cases h
      rfl
    refine ⟨hother, fun symbol hsymbol => ?_, fun name hname => ?_, fun dest c j hcompute => ?_, fun reason hreason => ?_⟩
    · rw [← String.toList_ofList (l := symbol)] at hsymbol
      cases h.unique (.address hsymbol)
    · rw [← String.toList_ofList (l := name)] at hname
      cases h.unique (.label hname)
    · rw [← String.toList_ofList (l := c), ← String.toList_ofList (l := j)] at hcompute
      cases h.unique (.compute hcompute)
    · cases h.unique (.malformed hreason)
  · rintro ⟨rfl, haddress, hlabel, hcompute, hmalformed⟩
    have hread := reading_parse other
    generalize parse other = r at hread
    cases hread with
    | address h => exact absurd h (haddress _)
    | label h => exact absurd h (hlabel _)
    | compute h => exact absurd h (hcompute _ _ _)
    | malformed h => exact absurd h (hmalformed _)
    | unrecognized haddress hlabel hparts => exact .unrecognized haddress hlabel hparts

/-! ## Instructions as they are written -/

theorem letters_eq_nil_iff {dest : Destination} : dest.letters = [] ↔ dest = .none := by
  obtain ⟨a, d, m⟩ := dest
  cases a <;> cases d <;> cases m <;> decide

theorem toList_render_compute (dest : Destination) (computation jump : String) :
    (render (.compute dest computation jump)).toList =
      Parts.text ⟨dest.letters, computation.toList, jump.toList⟩ := by
  have hdest : (if dest = .none then "" else String.ofList dest.letters ++ "=").toList =
      if dest.letters = [] then [] else dest.letters ++ ['='] := by
    rw [apply_ite String.toList]
    simp [letters_eq_nil_iff]
  have hjump : (if jump = "" then "" else ";" ++ jump).toList =
      if jump.toList = [] then [] else ';' :: jump.toList := by
    rw [apply_ite String.toList]
    simp
  rw [render, String.toList_append, String.toList_append, hdest, hjump, Parts.text]

/-- What a text is read as can be written, and is then read again. -/
theorem parse_render {i : Instruction} (h : parse text = .ok i) : parse i.render = .ok i := by
  have hread := parse_eq_iff.1 h
  cases hread with
  | @address symbol haddress =>
    obtain ⟨before, after, -, -, -, hsymbol⟩ := haddress
    exact parse_of_addressText ⟨[], [], by simp [render], List.forall_mem_nil _, List.forall_mem_nil _, hsymbol⟩
  | @label name hlabel => exact parse_of_labelText ⟨by simp [render], hlabel.2⟩
  | @compute dest computation jump hcompute =>
    obtain ⟨p, hp, huseful, -, hdest, hcomputation, hjump⟩ := hcompute
    -- The same parts, with the registers in the order in which they are written.
    refine parse_of_computeText ⟨⟨dest.letters, p.computation, p.jump⟩, ⟨⟨?_, ?_⟩, hp.computation, hp.jump⟩, huseful,
      ?_, .refl _, hcomputation, hjump⟩
    · exact hdest.length_eq ▸ hp.dest.1
    · exact fun c hc => hp.dest.2 c (hdest.mem_iff.2 hc)
    · rw [toList_render_compute, hcomputation, hjump]
  | unrecognized => exact h

theorem classify_eq_ok_iff {location : Option Location} {i : Instruction} :
    classify text location = .ok i ↔ parse text = .ok i := by
  unfold classify
  cases parse text <;> simp

theorem classify_eq_error_iff {location : Option Location} {e : Failure} :
    classify text location = .error e ↔
      ∃ reason, parse text = .error reason ∧ e = Cause.at (.malformedInstruction text reason) location := by
  unfold classify
  cases parse text with
  | ok i => simp
  | error reason => simp [eq_comm]

/-- **Classification decides exactly the grammar.** A text is an address, a label or a compute
instruction if and only if it is written like one; it is refused, with the reason, if and only if it
is malformed; and it is unrecognized if it is nothing of this. The parts of a compute instruction
are unique, and an instruction that has been read is read again from what it is written as. -/
theorem classify_decides_grammar (text : String) (location : Option Location) :
    (∀ symbol, classify text location = .ok (.address symbol) ↔ AddressText text.toList symbol.toList) ∧
    (∀ name, classify text location = .ok (.label name) ↔ LabelText text.toList name.toList) ∧
    (∀ dest computation jump, classify text location = .ok (.compute dest computation jump) ↔
      ComputeText text.toList dest computation.toList jump.toList) ∧
    (∀ e, classify text location = .error e ↔
      ∃ reason, Malformed text.toList reason ∧ e = Cause.at (.malformedInstruction text reason) location) ∧
    (∀ other, classify text location = .ok (.unrecognized other) ↔ other = text ∧
      (∀ symbol, ¬ AddressText text.toList symbol) ∧ (∀ name, ¬ LabelText text.toList name) ∧
      (∀ dest computation jump, ¬ ComputeText text.toList dest computation jump) ∧
      ∀ reason, ¬ Malformed text.toList reason) ∧
    (∀ p q : Parts, p.Shaped → q.Shaped → p.text = q.text → p = q) ∧
    (∀ i, classify text location = .ok i → classify i.render location = .ok i) := by
  simp only [classify_eq_ok_iff, classify_eq_error_iff, parse_eq_iff]
  refine ⟨fun symbol => ⟨fun h => ?_, .address⟩, fun name => ⟨fun h => ?_, .label⟩,
    fun dest computation jump => ⟨fun h => ?_, .compute⟩,
    fun e => exists_congr fun reason => and_congr_left fun _ => ⟨fun h => ?_, .malformed⟩,
    fun other => reading_unrecognized_iff, fun p q => Parts.Shaped.unique, fun i hi => ?_⟩
  · cases h with
    | address h => exact h
  · cases h with
    | label h => exact h
  · cases h with
    | compute h => exact h
  · cases h with
    | malformed h => exact h
  · exact parse_eq_iff.1 (parse_render (parse_eq_iff.2 hi))

/-- Registers out of order, a computation and a jump that no machine knows: the text has the shape of
a compute instruction, it is read as one, and so is the same instruction with its registers in order. -/
theorem classify_decides_grammar_unordered :
    ComputeText "MAD=!A-D;AMD".toList ⟨true, true, true⟩ "!A-D".toList "AMD".toList ∧
    classify "MAD=!A-D;AMD" none = .ok (.compute ⟨true, true, true⟩ "!A-D" "AMD") ∧
    classify "ADM=!A-D;AMD" none = .ok (.compute ⟨true, true, true⟩ "!A-D" "AMD") := by
  obtain ⟨-, -, hcompute, -, -, -, hrender⟩ := classify_decides_grammar "MAD=!A-D;AMD" none
  have htext : ComputeText "MAD=!A-D;AMD".toList ⟨true, true, true⟩ "!A-D".toList "AMD".toList := by
    refine ⟨⟨['M', 'A', 'D'], ['!', 'A', '-', 'D'], ['A', 'M', 'D']⟩, ⟨?_, .inr (.inr ?_), ?_⟩, .inl ?_, rfl, ?_, rfl, rfl⟩
    · simp [registers]
    · exact ⟨'!', by decide, _, rfl, .inr ⟨'A', by decide, '-', by decide, 'D', by decide, rfl⟩⟩
    · simp [Capital]
    · exact List.cons_ne_nil _ _
    · decide
  have hread := (hcompute _ _ _).2 htext
  exact ⟨htext, hread, hrender _ hread⟩

end Instruction

end HackToolchain
