import HackToolchain.Instruction.Grammar
import Mathlib
/-!
Text that is its own content. The characters of symbols, numerals and words are neither blank nor
a slash, so a line made of them is stripped of nothing, while a line that begins with two slashes
is stripped of everything. A number written in decimal reads back as that number.
-/

namespace HackToolchain

theorem beforeComment_cons {c : Char} (h : c ≠ '/') (cs : List Char) :
    beforeComment (c :: cs) = c :: beforeComment cs := by
  rw [beforeComment]
  rintro cs' rfl
  exact fun _ => h rfl

theorem beforeComment_eq_self : ∀ {cs : List Char}, (∀ c ∈ cs, c ≠ '/') → beforeComment cs = cs
  | [], _ => rfl
  | c :: cs, h => by
    rw [beforeComment_cons (h c List.mem_cons_self),
      beforeComment_eq_self fun d hd => h d (List.mem_cons_of_mem c hd)]

/-- A character at the end belongs to the comment, or there is none. -/
theorem beforeComment_concat {c : Char} (h : c ≠ '/') (cs : List Char) :
    beforeComment (cs ++ [c]) = beforeComment cs ∨ beforeComment (cs ++ [c]) = cs ++ [c] := by
  fun_induction beforeComment cs with
  | case1 => exact .inr (beforeComment_cons h [])
  | case2 rest => exact .inl rfl
  | case3 d ds hd ih =>
    have hcons : beforeComment (d :: ds ++ [c]) = d :: beforeComment (ds ++ [c]) := by
      rw [List.cons_append, beforeComment]
      intro rest hd' hrest
      cases ds with
      | nil => exact h (List.cons.inj hrest).1
      | cons e ds => exact hd ds hd' (congrArg (· :: ds) (List.cons.inj hrest).1)
    rw [hcons]
    rcases ih with ih | ih
    · exact .inl (congrArg _ ih)
    · exact .inr (congrArg _ ih)

namespace Text

theorem mem_dropWhile {p : Char → Bool} {c : Char} {cs : List Char} (h : c ∈ cs) (hc : p c = false) :
    c ∈ cs.dropWhile p := by
  rw [← List.takeWhile_append_dropWhile (p := p) (l := cs), List.mem_append] at h
  rcases h with h | h
  · rw [List.mem_takeWhile_imp h] at hc
    cases hc
  · exact h

theorem dropWhile_eq_self {p : Char → Bool} {cs : List Char} (h : ∀ c ∈ cs, p c = false) :
    cs.dropWhile p = cs := by
  cases cs with
  | nil => rfl
  | cons c cs => rw [List.dropWhile_cons, if_neg (by simp [h c])]

theorem trim_eq_self {cs : List Char} (h : ∀ c ∈ cs, isBlank c = false) : trim cs = cs := by
  rw [trim, trimBoth, dropWhile_eq_self h, dropWhile_eq_self (by simpa using h), List.reverse_reverse]

theorem trim_cons {c : Char} (h : isBlank c = false) (cs : List Char) :
    trim (c :: cs) = c :: cs.rdropWhile isBlank := by
  have hlast : (cs.reverse ++ [c]).dropWhile isBlank = cs.reverse.dropWhile isBlank ++ [c] := by
    rw [List.dropWhile_append]
    split
    next hempty => simp [List.isEmpty_iff.1 hempty, h]
    · rfl
  rw [trim, trimBoth, List.dropWhile_cons, if_neg (by simp [h]), List.reverse_cons, hlast, List.reverse_append]
  rfl

theorem mem_trim {c : Char} {cs : List Char} (h : c ∈ cs) (hc : isBlank c = false) : c ∈ trim cs := by
  rw [trim, trimBoth, List.mem_reverse]
  exact mem_dropWhile (List.mem_reverse.2 (mem_dropWhile h hc)) hc

/-! ## Numerals -/

theorem isDigit_of_mem_repr {n : Nat} {c : Char} (h : c ∈ n.repr.toList) : c.isDigit = true := by
  rw [Nat.toList_repr] at h
  exact Nat.isDigit_of_mem_toDigits (by decide) (by decide) h

theorem toList_repr_ne_nil (n : Nat) : n.repr.toList ≠ [] := by
  rw [Nat.toList_repr]
  exact Nat.toDigits_ne_nil

theorem isNumeral_repr (n : Nat) : isNumeral n.repr.toList = true := by
  rw [isNumeral, Bool.and_eq_true, Bool.not_eq_true', List.isEmpty_eq_false_iff, List.all_eq_true]
  exact ⟨toList_repr_ne_nil n, fun _ => isDigit_of_mem_repr⟩

theorem isNumeral_eq_false_of_mem {c : Char} {cs : List Char} (h : c ∈ cs) (hc : c.isDigit = false) :
    isNumeral cs = false := by
  rw [isNumeral, Bool.and_eq_false_iff, List.all_eq_false]
  exact .inr ⟨c, h, by simp [hc]⟩

theorem decimal_of_nonneg {k : Int} (h : 0 ≤ k) : decimal k = k.toNat.repr := by
  obtain ⟨n, rfl⟩ := Int.eq_ofNat_of_zero_le h
  rfl

theorem numeralValue_repr (n : Nat) : numeralValue n.repr.toList = n := by
  conv_rhs => rw [← Nat.ofDigitChars_ten_toDigits (n := n)]
  rw [Nat.toList_repr, numeralValue, ofDigits, List.foldl_map, Nat.ofDigitChars]

end Text

/-! ## Lines of plain characters -/

/-- Characters that neither begin a comment nor are blank. -/
def isPlain (c : Char) : Bool :=
  c != '/' && !Text.isBlank c

theorem isBlank_of_isPlain {c : Char} (h : isPlain c = true) : Text.isBlank c = false := by
  rw [isPlain, Bool.and_eq_true, Bool.not_eq_true'] at h
  exact h.2

theorem stripComment_eq_self {text : String} (h : ∀ c ∈ text.toList, isPlain c = true) :
    stripComment text = text := by
  simp only [isPlain, Bool.and_eq_true, bne_iff_ne, Bool.not_eq_true'] at h
  rw [stripComment, beforeComment_eq_self fun c hc => (h c hc).1,
    Text.trim_eq_self fun c hc => (h c hc).2, String.ofList_toList]

theorem ne_slash_of_isPlain {c : Char} (h : isPlain c = true) : c ≠ '/' := by
  rintro rfl
  cases h

/-- A line that begins with a plain character keeps it. -/
theorem toList_stripComment {text : String} {c : Char} {cs : List Char} (htext : text.toList = c :: cs)
    (hplain : isPlain c = true) :
    (stripComment text).toList = c :: (beforeComment cs).rdropWhile Text.isBlank := by
  rw [stripComment, htext, beforeComment_cons (ne_slash_of_isPlain hplain), String.toList_ofList,
    Text.trim_cons (isBlank_of_isPlain hplain)]

theorem stripComment_comment (text : String) : stripComment ("// " ++ text) = "" := by
  rw [stripComment, String.toList_append]
  rfl

theorem isPlain_of_toNat {c : Char} (h : 0x30 ≤ c.toNat) (h' : c.toNat < 0x80) : isPlain c = true := by
  simp only [isPlain, Text.isBlank, Bool.and_eq_true, bne_iff_ne, Bool.not_eq_true', Bool.or_eq_false_iff,
    Bool.and_eq_false_iff, decide_eq_false_iff_not, beq_eq_false_iff_ne]
  refine ⟨?_, by omega⟩
  rintro rfl
  exact absurd h (by decide)

theorem isPlain_of_isSymbolChar {c : Char} (h : Instruction.isSymbolChar c = true) : isPlain c = true := by
  simp only [Instruction.isSymbolChar, Instruction.isSymbolStart, Char.isAlpha, Char.isUpper, Char.isLower,
    Char.isDigit, Bool.or_eq_true, Bool.and_eq_true, decide_eq_true_eq, beq_iff_eq, ge_iff_le,
    UInt32.le_iff_toNat_le] at h
  rcases h with (((((h | h) | rfl) | rfl) | rfl) | rfl) | h
  case inl.inl.inl.inl.inl.inl =>
    exact isPlain_of_toNat (Nat.le_trans (by decide) h.1) (Nat.lt_of_le_of_lt h.2 (by decide))
  case inl.inl.inl.inl.inl.inr =>
    exact isPlain_of_toNat (Nat.le_trans (by decide) h.1) (Nat.lt_of_le_of_lt h.2 (by decide))
  case inr => exact isPlain_of_toNat h.1 (Nat.lt_of_le_of_lt h.2 (by decide))
  all_goals decide

namespace Instruction

theorem isSymbolChar_of_isDigit {c : Char} (h : c.isDigit = true) : isSymbolChar c = true := by
  rw [isSymbolChar, h, Bool.or_true]

theorem isSymbolChar_of_isSymbolName {cs : List Char} (h : isSymbolName cs = true) :
    ∀ c ∈ cs, isSymbolChar c = true := by
  cases cs with
  | nil => cases h
  | cons c cs =>
    rw [isSymbolName, Bool.and_eq_true, List.all_eq_true] at h
    refine List.forall_mem_cons.2 ⟨?_, h.2⟩
    rw [isSymbolChar, h.1, Bool.true_or]

theorem not_isDigit_of_isSymbolStart {c : Char} (h : isSymbolStart c = true) : c.isDigit = false := by
  by_contra hd
  rw [Bool.not_eq_false] at hd
  simp only [isSymbolStart, Char.isAlpha, Char.isUpper, Char.isLower, Char.isDigit, Bool.or_eq_true,
    Bool.and_eq_true, decide_eq_true_eq, beq_iff_eq, ge_iff_le, UInt32.le_iff_toNat_le] at h hd
  change 48 ≤ c.toNat ∧ c.toNat ≤ 57 at hd
  rcases h with ((((h | h) | rfl) | rfl) | rfl) | rfl
  · change 65 ≤ c.toNat ∧ c.toNat ≤ 90 at h
    omega
  · change 97 ≤ c.toNat ∧ c.toNat ≤ 122 at h
    omega
  all_goals revert hd; decide

theorem isNumeral_of_isSymbolName {cs : List Char} (h : isSymbolName cs = true) : Text.isNumeral cs = false := by
  cases cs with
  | nil => rfl
  | cons c cs =>
    rw [isSymbolName, Bool.and_eq_true] at h
    exact Text.isNumeral_eq_false_of_mem List.mem_cons_self (not_isDigit_of_isSymbolStart h.1)

end Instruction

end HackToolchain
