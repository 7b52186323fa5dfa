import HackToolchain.Proofs.Text
import HackToolchain.Text.Lines
import HackToolchain.Text.Utf8
import Mathlib
/-!
Text that is written to a file and read back. UTF-8 is read back byte by byte: the first byte of a
character announces how many follow and which ones may, and every byte that follows carries six
bits. A text is cut into rows at its line ends, of which there are three: a line feed, a carriage
return, and both in this order, which end one row and not two. There is one way to cut a text, and its
lines are the rows of that. So lines without line ends in them are read back as they were written, and
the lines of a text are such lines.
-/

namespace HackToolchain.Text

/-! ## Characters -/

variable {offset : Nat} {byte : UInt8} {rest : List UInt8} {read : List Char}

theorem decodeFrom_lead {s : Utf8Sequence} (hb : 0x80 ≤ byte.toNat)
    (hs : Utf8Sequence.begin? offset byte.toNat = some s) :
    decodeFrom offset none read (byte :: rest) = decodeFrom (offset + 1) (some s) read rest := by
  simp only [decodeFrom, hs]
  rw [if_neg (by omega)]

theorem decodeFrom_last {start least most bits : Nat} (hle : least ≤ byte.toNat) (hlt : byte.toNat ≤ most) :
    decodeFrom offset (some ⟨start, 1, least, most, bits⟩) read (byte :: rest) =
      decodeFrom (offset + 1) none (Char.ofNat (64 * bits + (byte.toNat - 0x80)) :: read) rest := by
  simp [decodeFrom, hle, hlt]

theorem decodeFrom_tail {start due least most bits : Nat} (hle : least ≤ byte.toNat) (hlt : byte.toNat ≤ most) :
    decodeFrom offset (some ⟨start, due + 2, least, most, bits⟩) read (byte :: rest) =
      decodeFrom (offset + 1) (some ⟨start, due + 1, 0x80, 0xBF, 64 * bits + (byte.toNat - 0x80)⟩) read rest := by
  simp [decodeFrom, hle, hlt]

/-- The first byte of two. -/
theorem begin?_two {v : Nat} (hle : 0x80 ≤ v) (hlt : v ≤ 0x7ff) :
    Utf8Sequence.begin? offset (v / 64 + 0xc0) = some ⟨offset, 1, 0x80, 0xBF, v / 64⟩ := by
  simp only [Utf8Sequence.begin?, Bool.and_eq_true, decide_eq_true_eq]
  rw [if_pos (by omega), Nat.add_sub_cancel]

/-- The first of three bytes, and what it asks of the second: no overlong form and no surrogate. -/
theorem begin?_three (offset : Nat) {v : Nat} (hle : 0x800 ≤ v) (hlt : v ≤ 0xffff) (hvalid : v < 0xd800 ∨ 0xdfff < v) :
    ∃ least most, Utf8Sequence.begin? offset (v / 4096 + 0xe0) = some ⟨offset, 2, least, most, v / 4096⟩ ∧
      least ≤ v / 64 % 0x40 + 0x80 ∧ v / 64 % 0x40 + 0x80 ≤ most := by
  simp only [Utf8Sequence.begin?, Bool.and_eq_true, decide_eq_true_eq, beq_iff_eq]
  rw [if_neg (by omega)]
  by_cases hfirst : v / 4096 = 0
  · rw [if_pos (by omega), hfirst]
    exact ⟨_, _, rfl, by omega, by omega⟩
  rw [if_neg (by omega)]
  by_cases hsurrogate : v / 4096 = 13
  · rw [if_pos (by omega), hsurrogate]
    exact ⟨_, _, rfl, by omega, by omega⟩
  · rw [if_neg (by omega), if_pos (by omega), Nat.add_sub_cancel]
    exact ⟨_, _, rfl, by omega, by omega⟩

/-- The first of four bytes, and what it asks of the second. -/
theorem begin?_four (offset : Nat) {v : Nat} (hle : 0x10000 ≤ v) (hlt : v < 0x110000) :
    ∃ least most, Utf8Sequence.begin? offset (v / 262144 + 0xf0) = some ⟨offset, 3, least, most, v / 262144⟩ ∧
      least ≤ v / 4096 % 0x40 + 0x80 ∧ v / 4096 % 0x40 + 0x80 ≤ most := by
  simp only [Utf8Sequence.begin?, Bool.and_eq_true, decide_eq_true_eq, beq_iff_eq]
  rw [if_neg (by omega), if_neg (by omega), if_neg (by omega), if_neg (by omega)]
  by_cases hfirst : v / 262144 = 0
  · rw [if_pos (by omega), hfirst]
    exact ⟨_, _, rfl, by omega, by omega⟩
  rw [if_neg (by omega)]
  by_cases hlast : v / 262144 = 4
  · rw [if_neg (by omega), if_pos (by omega), hlast]
    exact ⟨_, _, rfl, by omega, by omega⟩
  · rw [if_pos (by omega), Nat.add_sub_cancel]
    exact ⟨_, _, rfl, by omega, by omega⟩

/-- The bytes of a character are read as that character. -/
theorem decodeFrom_char (c : Char) (offset : Nat) (read : List Char) (rest : List UInt8) :
    ∃ offset', decodeFrom offset none read (String.utf8EncodeChar c ++ rest) =
      decodeFrom offset' none (c :: read) rest := by
  have hvalid : c.toNat < 0xd800 ∨ 0xdfff < c.toNat ∧ c.toNat < 0x110000 := c.valid
  have hchar := Char.ofNat_toNat c
  rw [String.utf8EncodeChar]
  generalize hv : c.val.toNat = v
  change c.toNat = v at hv
  rw [hv] at hvalid hchar
  by_cases h1 : v ≤ 0x7f
  · refine ⟨offset + 1, ?_⟩
    simp only [if_pos h1, List.singleton_append, decodeFrom, UInt8.toNat_ofNat_of_lt' (show v < 256 by omega)]
    rw [if_pos (by omega), hchar]
  -- Every further byte carries six bits.
  have hsix : ∀ x, (UInt8.ofNat (x % 0x40 + 0x80)).toNat = x % 0x40 + 0x80 := fun x =>
    UInt8.toNat_ofNat_of_lt' (show _ < 256 by omega)
  by_cases h2 : v ≤ 0x7ff
  · have hlead : (UInt8.ofNat (v / 64 % 0x20 + 0xc0)).toNat = v / 64 + 0xc0 := by
      rw [UInt8.toNat_ofNat_of_lt' (show _ < 256 by omega)]
      omega
    have hlast := hsix v
    rw [if_neg h1, if_pos h2, List.cons_append, decodeFrom_lead (by omega) (hlead ▸ begin?_two (by omega) h2),
      List.cons_append, decodeFrom_last (by omega) (by omega), hlast,
      show 64 * (v / 64) + (v % 0x40 + 0x80 - 0x80) = v by omega, hchar]
    exact ⟨_, rfl⟩
  by_cases h3 : v ≤ 0xffff
  · have hlead : (UInt8.ofNat (v / 4096 % 0x10 + 0xe0)).toNat = v / 4096 + 0xe0 := by
      rw [UInt8.toNat_ofNat_of_lt' (show _ < 256 by omega)]
      omega
    have hsecond := hsix (v / 64)
    have hlast := hsix v
    obtain ⟨least, most, hbegin, hle, hmost⟩ := begin?_three offset (v := v) (by omega) h3 (by omega)
    rw [if_neg h1, if_neg h2, if_pos h3, List.cons_append, decodeFrom_lead (by omega) (hlead ▸ hbegin),
      List.cons_append, decodeFrom_tail (by omega) (by omega), hsecond, List.cons_append,
      decodeFrom_last (by omega) (by omega), hlast,
      show 64 * (64 * (v / 4096) + (v / 64 % 0x40 + 0x80 - 0x80)) + (v % 0x40 + 0x80 - 0x80) = v by omega, hchar]
    exact ⟨_, rfl⟩
  · have hlead : (UInt8.ofNat (v / 262144 % 0x08 + 0xf0)).toNat = v / 262144 + 0xf0 := by
      rw [UInt8.toNat_ofNat_of_lt' (show _ < 256 by omega)]
      omega
    have hsecond := hsix (v / 4096)
    have hthird := hsix (v / 64)
    have hlast := hsix v
    obtain ⟨least, most, hbegin, hle, hmost⟩ := begin?_four offset (v := v) (by omega) (by omega)
    rw [if_neg h1, if_neg h2, if_neg h3, List.cons_append, decodeFrom_lead (by omega) (hlead ▸ hbegin),
      List.cons_append, decodeFrom_tail (by omega) (by omega), hsecond, List.cons_append,
      decodeFrom_tail (by omega) (by omega), hthird, List.cons_append, decodeFrom_last (by omega) (by omega), hlast,
      show 64 * (64 * (64 * (v / 262144) + (v / 4096 % 0x40 + 0x80 - 0x80)) + (v / 64 % 0x40 + 0x80 - 0x80)) +
        (v % 0x40 + 0x80 - 0x80) = v by omega, hchar]
    exact ⟨_, rfl⟩

theorem decodeFrom_flatMap (cs : List Char) (offset : Nat) (read : List Char) :
    decodeFrom offset none read (cs.flatMap String.utf8EncodeChar) = .ok (read.reverse ++ cs) := by
  induction cs generalizing offset read with
  | nil => simp [decodeFrom]
  | cons c cs ih =>
    obtain ⟨offset', h⟩ := decodeFrom_char c offset read (cs.flatMap String.utf8EncodeChar)
    rw [List.flatMap_cons, h, ih]
    simp

/-- **What is written as UTF-8 is read back.** -/
theorem decodeUtf8_toUTF8 (s : String) : decodeUtf8 s.toUTF8 = .ok s.toList := by
  have hbytes : s.toUTF8.data.toList = s.toList.flatMap String.utf8EncodeChar := by
    rw [String.toUTF8_eq_toByteArray, ← String.utf8Encode_toList, List.utf8Encode, List.toList_data_toByteArray]
  rw [decodeUtf8, hbytes, decodeFrom_flatMap]
  rfl

/-! ## Lines -/

/-- No character of the text ends a line. -/
def Unbroken (cs : List Char) : Prop :=
  ∀ c ∈ cs, c ≠ '\n' ∧ c ≠ '\r'

instance (cs : List Char) : Decidable (Unbroken cs) :=
  List.decidableBAll _ cs

theorem Unbroken.append {cs ds : List Char} (h : Unbroken cs) (h' : Unbroken ds) : Unbroken (cs ++ ds) :=
  List.forall_mem_append.2 ⟨h, h'⟩

theorem Unbroken.reverse {cs : List Char} (h : Unbroken cs) : Unbroken cs.reverse :=
  fun c hc => h c (List.mem_reverse.1 hc)

/-- What the next character does to the line begun, unless it is one of the two that end a line together. -/
theorem linesFrom_cons {c : Char} {rest : List Char} (h : ∀ tail, c = '\r' → rest = '\n' :: tail → False)
    (begun : List Char) (done : List String) : linesFrom begun done (c :: rest) =
      if c == '\n' || c == '\r' then linesFrom [] (String.ofList begun.reverse :: done) rest
      else linesFrom (c :: begun) done rest := by
  rw [linesFrom]
  exact h

/-- What does not end a line continues it. -/
theorem linesFrom_append {cs : List Char} (h : Unbroken cs) (begun : List Char) (done : List String)
    (rest : List Char) : linesFrom begun done (cs ++ rest) = linesFrom (cs.reverse ++ begun) done rest := by
  induction cs generalizing begun with
  | nil => rfl
  | cons c cs ih =>
    obtain ⟨⟨hn, hr⟩, hcs⟩ := List.forall_mem_cons.1 h
    rw [List.cons_append, linesFrom_cons fun _ hc => absurd hc hr, if_neg (by simp [hn, hr]), ih hcs]
    simp

/-- The lines done stay in front of those to come. -/
theorem linesFrom_done (begun : List Char) (done : List String) (cs : List Char) :
    linesFrom begun done cs = done.reverse ++ linesFrom begun [] cs := by
  suffices h : ∀ before, linesFrom begun before cs = before.reverse ++ linesFrom begun [] cs from h done
  fun_induction linesFrom begun done cs with
  | case1 begun done =>
    intro before
    cases begun <;> simp [linesFrom]
  | case2 begun done rest ih =>
    intro before
    rw [linesFrom, linesFrom, ih (_ :: before), ih [_]]
    simp
  | case3 begun done c rest hnot hc ih =>
    intro before
    rw [linesFrom_cons hnot, linesFrom_cons hnot, if_pos hc, if_pos hc, ih (_ :: before), ih [_]]
    simp
  | case4 begun done c rest hnot hc ih =>
    intro before
    rw [linesFrom_cons hnot, linesFrom_cons hnot, if_neg hc, if_neg hc, ih before]

section Ends

variable {row : List Char} (h : Unbroken row) (rest : List Char)

include h

/-- A row is cut off where `linesFrom` takes it for done. -/
theorem lines_of_linesFrom {tail : List Char}
    (htail : linesFrom row.reverse [] tail = linesFrom [] [String.ofList row.reverse.reverse] rest) :
    lines (row ++ tail) = String.ofList row :: lines rest := by
  rw [lines, linesFrom_append h, List.append_nil, htail, linesFrom_done, List.reverse_reverse]
  rfl

theorem lines_lineFeed : lines (row ++ '\n' :: rest) = String.ofList row :: lines rest :=
  lines_of_linesFrom h rest (by simp [linesFrom])

end Ends

/-- **Lines that are written are read back.** -/
theorem lines_unlines {ls : List String} (h : ∀ l ∈ ls, Unbroken l.toList) : lines (unlines ls).toList = ls := by
  induction ls with
  | nil => rfl
  | cons l ls ih =>
    obtain ⟨hl, hls⟩ := List.forall_mem_cons.1 h
    have htext : (unlines (l :: ls)).toList = l.toList ++ '\n' :: (unlines ls).toList := by simp [unlines]
    rw [htext, lines_lineFeed hl, ih hls, String.ofList_toList]

end HackToolchain.Text

namespace HackToolchain

end HackToolchain
