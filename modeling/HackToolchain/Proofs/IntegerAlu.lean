import HackToolchain.Proofs.IntegerMachine
import Mathlib
/-!
The arithmetic unit on integers of any size. Bits are what carries the argument: an integer has a bit
at every place, a negative one has them set from some place on, and complement, conjunction and the
final mask all act place by place, so that the word of an integer knows all that the unit looks at. The
result of the unit, which is cut down only once, is therefore the result of the unit on words, and its
sign is that of the one number in the range of a signed word that is congruent to it.
-/

namespace HackToolchain

/-! ## Bits of integers -/

namespace Alu

/-- The conjunction of integers is the one of the library. -/
theorem conjunction_eq_land (x y : Int) : conjunction x y = Int.land x y := by
  cases x <;> cases y <;> rfl

theorem testBit_conjunction (x y : Int) (i : Nat) : (conjunction x y).testBit i = (x.testBit i && y.testBit i) := by
  rw [conjunction_eq_land, Int.testBit_land]

/-- What an integer shares with one that is not negative is not negative. -/
theorem exists_conjunction_eq (n : Int) (mask : Nat) : ∃ k : Nat, conjunction n mask = k := by
  cases n with
  | ofNat m => exact ⟨m &&& mask, rfl⟩
  | negSucc m => exact ⟨Nat.bitwise (fun a b => a && !b) mask m, rfl⟩

/-- A mask of one bit tells that bit. -/
theorem hasBit_two_pow (n : Int) (i : Nat) : hasBit n ((2 ^ i : Nat) : Int) = n.testBit i := by
  obtain ⟨k, hk⟩ := exists_conjunction_eq n (2 ^ i)
  have hbits : ∀ j, k.testBit j = (n.testBit j && decide (i = j)) := by
    intro j
    have hpow : Int.testBit ((2 ^ i : Nat) : Int) j = decide (i = j) := Nat.testBit_two_pow
    have hand := testBit_conjunction n ((2 ^ i : Nat) : Int) j
    rw [hk, hpow] at hand
    exact hand
  rw [hasBit, hk]
  cases hbit : n.testBit i with
  | true =>
    have hset : k.testBit i = true := by rw [hbits, hbit, decide_eq_true rfl, Bool.and_self]
    have hne : k ≠ 0 := by
      intro hzero
      rw [hzero, Nat.zero_testBit] at hset
      cases hset
    simpa using hne
  | false =>
    have hzero : k = 0 := by
      apply Nat.zero_of_testBit_eq_false
      intro j
      rw [hbits]
      by_cases hij : i = j
      · rw [← hij, hbit, Bool.false_and]
      · rw [decide_eq_false hij, Bool.and_false]
    rw [hzero]
    rfl

end Alu

/-- A vector made of an integer has the integer's bits. -/
theorem getLsbD_ofInt {w i : Nat} (h : i < w) (n : Int) : (BitVec.ofInt w n).getLsbD i = n.testBit i := by
  cases n with
  | ofNat m =>
    rw [Int.ofNat_eq_natCast, BitVec.ofInt_natCast, BitVec.getLsbD_ofNat, decide_eq_true h, Bool.true_and]
    rfl
  | negSucc m =>
    rw [BitVec.ofInt_negSucc_eq_not_ofNat, BitVec.getLsbD_not, BitVec.getLsbD_ofNat, decide_eq_true h, Bool.true_and,
      Bool.true_and]
    rfl

namespace Alu

/-- A bit of an integer, shifted to the end and cut out. -/
def bitAt (n : Int) (i : Nat) : Bool :=
  conjunction (n >>> i) 1 != 0

theorem bitAt_eq (n : Int) (i : Nat) : bitAt n i = n.testBit i := by
  have hlast : bitAt n i = (n >>> i).testBit 0 := hasBit_two_pow (n >>> i) 0
  rw [hlast]
  cases n with
  | ofNat m =>
    have hshift : Int.testBit (Int.ofNat m >>> i) 0 = (m >>> i).testBit 0 := rfl
    rw [hshift, Nat.testBit_shiftRight]
    rfl
  | negSucc m =>
    have hshift : Int.testBit (Int.negSucc m >>> i) 0 = !(m >>> i).testBit 0 := rfl
    rw [hshift, Nat.testBit_shiftRight]
    rfl

/-- The last sixteen bits of an integer are its word. -/
theorem conjunction_mask (n : Int) : conjunction n 0xFFFF = (Word.ofInt n).unsigned := by
  obtain ⟨k, hk⟩ := exists_conjunction_eq n 0xFFFF
  have hword : k = (Word.ofInt n).toNat := by
    apply Nat.eq_of_testBit_eq
    intro i
    have hmask : Int.testBit ((0xFFFF : Nat) : Int) i = decide (i < 16) := Nat.testBit_two_pow_sub_one 16 i
    have hand := testBit_conjunction n ((0xFFFF : Nat) : Int) i
    rw [hk, hmask] at hand
    rw [BitVec.testBit_toNat]
    refine hand.trans ?_
    by_cases hi : i < 16
    · rw [decide_eq_true hi, Bool.and_true, Word.ofInt, getLsbD_ofInt hi]
    · rw [decide_eq_false hi, Bool.and_false, BitVec.getLsbD_of_ge _ _ (Nat.le_of_not_lt hi)]
  rw [Word.unsigned, ← hword]
  exact hk

end Alu

/-! ## The unit on integers -/

namespace Alu

/-- The unit with nothing but integers: control bits cut out one by one, operands of any size and sign,
and one mask at the end. -/
def integerOutput (control x y : Int) : Int :=
  let x := prepareInteger (bitAt control 5) (bitAt control 4) x
  let y := prepareInteger (bitAt control 3) (bitAt control 2) y
  let out := if bitAt control 1 then x + y else conjunction x y
  conjunction (if bitAt control 0 then complement out else out) 0xFFFF

theorem bitAt_control {i : Nat} (h : i < 6) (control : Int) :
    bitAt control i = (BitVec.ofInt 6 control).getLsbD i := by
  rw [bitAt_eq, getLsbD_ofInt h]

/-- The mask makes the result of the unit the word that it is cut down to. -/
theorem integerOutput_eq_onIntegers (control x y : Int) :
    integerOutput control x y = (onIntegers (.ofInt 6 control) x y).unsigned := by
  simp only [integerOutput, onIntegers, conjunction_mask, bitAt_control (show 5 < 6 by decide),
    bitAt_control (show 4 < 6 by decide), bitAt_control (show 3 < 6 by decide), bitAt_control (show 2 < 6 by decide),
    bitAt_control (show 1 < 6 by decide), bitAt_control (show 0 < 6 by decide)]

theorem integerOutput_eq_output (control x y : Int) :
    integerOutput control x y = (output (.ofInt 6 control) (Word.ofInt x) (Word.ofInt y)).unsigned := by
  rw [integerOutput_eq_onIntegers, onIntegers_eq]

end Alu

/-! ## Words and residues -/

namespace Word

theorem unsigned_ofInt (n : Int) : (ofInt n).unsigned = n % 65536 := by
  have hnonneg : 0 ≤ n % 65536 := Int.emod_nonneg n (by decide)
  rw [unsigned, ofInt, BitVec.toNat_ofInt]
  exact Int.toNat_of_nonneg hnonneg

/-- Integers have the same word exactly if they are congruent. -/
theorem ofInt_eq_iff (m n : Int) : ofInt m = ofInt n ↔ m ≡ n [ZMOD 65536] := by
  rw [Int.ModEq, ← unsigned_ofInt, ← unsigned_ofInt]
  constructor
  · exact congrArg unsigned
  · intro h
    rw [← ofInt_unsigned (ofInt m), h, ofInt_unsigned]

/-- The signed number of a word is the only one in its range that has this word. -/
theorem eq_signed_iff (w : Word) (v : Int) :
    v = w.signed ↔ (-32768 ≤ v ∧ v ≤ 32767) ∧ v ≡ w.unsigned [ZMOD 65536] := by
  rw [← ofInt_eq_iff, ofInt_unsigned]
  constructor
  · rintro rfl
    have hle : -2 ^ 15 ≤ w.toInt := w.le_toInt
    have hlt : w.toInt < 2 ^ 15 := w.toInt_lt
    refine ⟨?_, BitVec.ofInt_toInt⟩
    simp only [signed]
    omega
  · rintro ⟨hrange, rfl⟩
    exact (BitVec.toInt_ofInt_eq_self (by decide) (by omega) (by omega)).symm

end Word

namespace Alu

theorem signedInteger_eq (n : Int) : signedInteger n = (Word.ofInt n).signed := by
  rw [← Word.signedInteger_unsigned]
  simp only [signedInteger, conjunction_mask, Word.ofInt_unsigned]

/-- A jump bit of an integer. -/
theorem hasBit_jump {i : Nat} (h : i < 3) (jump : Int) :
    hasBit jump ((2 ^ i : Nat) : Int) = (BitVec.ofInt 3 jump).getLsbD i := by
  rw [hasBit_two_pow, getLsbD_ofInt h]

theorem jumpsOnIntegers_eq (jump out : Int) : jumpsOnIntegers jump out = jumps (.ofInt 3 jump) (Word.ofInt out) := by
  have below : hasBit jump 0b100 = _ := hasBit_jump (i := 2) (by decide) jump
  have equal : hasBit jump 0b010 = _ := hasBit_jump (i := 1) (by decide) jump
  have above : hasBit jump 0b001 = _ := hasBit_jump (i := 0) (by decide) jump
  simp only [jumpsOnIntegers, jumps, signedInteger_eq, below, equal, above]

theorem jumpsOnIntegers_iff (jump out : Int) : jumpsOnIntegers jump out = true ↔
    jump.testBit 2 = true ∧ signedInteger out < 0 ∨ jump.testBit 1 = true ∧ signedInteger out = 0 ∨
      jump.testBit 0 = true ∧ 0 < signedInteger out := by
  have below : hasBit jump 0b100 = _ := hasBit_two_pow jump 2
  have equal : hasBit jump 0b010 = _ := hasBit_two_pow jump 1
  have above : hasBit jump 0b001 = _ := hasBit_two_pow jump 0
  simp only [jumpsOnIntegers, below, equal, above, Bool.or_eq_true, Bool.and_eq_true, decide_eq_true_eq, beq_iff_eq,
    or_assoc]

/-- **The unit on integers is the unit on words.** For operands of any size and sign and every control,
of which six bits count, the result is in the range of a word, depends on the operands only modulo 2^16,
and is that of the circuit on words. The number that its sixteen bits stand for is the only one in the
range of a signed word that is congruent to it, and a jump is taken as that number is below, equal to
or above zero. -/
theorem integer_unit_is_word_unit (control x y : Int) :
    let out := integerOutput control x y
    (0 ≤ out ∧ out ≤ 65535) ∧
    (∀ x' y', x' ≡ x [ZMOD 65536] → y' ≡ y [ZMOD 65536] → integerOutput control x' y' = out) ∧
    (out = (output (.ofInt 6 control) (Word.ofInt x) (Word.ofInt y)).unsigned ∧
      out = (onIntegers (.ofInt 6 control) x y).unsigned) ∧
    (∀ v, v = signedInteger out ↔ (-32768 ≤ v ∧ v ≤ 32767) ∧ v ≡ out [ZMOD 65536]) ∧
    ∀ jump, jumpsOnIntegers jump out = jumps (.ofInt 3 jump) (Word.ofInt out) ∧
      (jumpsOnIntegers jump out = true ↔
        jump.testBit 2 = true ∧ signedInteger out < 0 ∨ jump.testBit 1 = true ∧ signedInteger out = 0 ∨
          jump.testBit 0 = true ∧ 0 < signedInteger out) := by
  intro out
  have hword : out = (output (.ofInt 6 control) (Word.ofInt x) (Word.ofInt y)).unsigned :=
    integerOutput_eq_output control x y
  refine ⟨?_, ?_, ⟨hword, integerOutput_eq_onIntegers control x y⟩, fun v => ?_,
    fun jump => ⟨jumpsOnIntegers_eq jump out, jumpsOnIntegers_iff jump out⟩⟩
  · rw [hword]
    exact Word.unsigned_range _
  · intro x' y' hx hy
    rw [hword, integerOutput_eq_output, (Word.ofInt_eq_iff x' x).2 hx, (Word.ofInt_eq_iff y' y).2 hy]
  · rw [signedInteger_eq, Word.eq_signed_iff, hword, Word.ofInt_unsigned]

/-- The bits that neither operand has, by a control that no computation uses, for operands that no word
holds. -/
theorem integer_unit_on_wide_operands :
    let out := integerOutput 0b010100 (-2 ^ 40) (2 ^ 70 + 5)
    (0 ≡ -2 ^ 40 [ZMOD 65536] ∧ 5 ≡ 2 ^ 70 + 5 [ZMOD 65536]) ∧ integerOutput 0b010100 0 5 = out ∧
      -6 = signedInteger out ∧ jumpsOnIntegers 0b100 out = true := by
  intro out
  obtain ⟨-, hcongruent, ⟨hword, -⟩, hsigned, hjump⟩ := integer_unit_is_word_unit 0b010100 (-2 ^ 40) (2 ^ 70 + 5)
  have hx : 0 ≡ -2 ^ 40 [ZMOD 65536] := by decide
  have hy : 5 ≡ 2 ^ 70 + 5 [ZMOD 65536] := by decide
  have hnumber : -6 = signedInteger out := by
    rw [hsigned, hword]
    decide
  refine ⟨⟨hx, hy⟩, hcongruent 0 5 hx hy, hnumber, (hjump 0b100).2.2 (.inl ⟨rfl, ?_⟩)⟩
  rw [← hnumber]
  decide

end Alu

end HackToolchain
