import HackToolchain.Machine.Rom
import HackToolchain.Proofs.LineOutcome
import HackToolchain.Proofs.LocatedLines
import Mathlib
/-!
A source can be filtered before it is used. Whoever takes lines takes raw ones and located ones: a
raw line is freed of its comment on the spot, and skipped if nothing is left, while a located one is
taken as it is. Both ways lead to the same words, the same assembly and the same program, with as
many warnings, or to the same failure, but for the place that it names.
-/

namespace HackToolchain

/-! ## Commands -/

/-- The place is not part of the grammar: the same reading applies everywhere. -/
theorem Command.placeBlind_classify (text : String) : PlaceBlind (classify text) := by
  cases hwords : Text.words text.toList with
  | nil =>
    refine .inr ⟨fun _ => .breach .emptyCommand, fun _ _ => rfl, fun l => ?_⟩
    rw [classify, hwords]
  | cons first operands =>
    have hall : ∀ r : Option Location → Except Failure Command, (∀ l, Reading text l (first :: operands) (r l)) →
        classify text = r := fun r hr => funext fun l => (classify_eq_iff hwords).2 (hr l)
    obtain ⟨r, hread⟩ : ∃ r, Reading text none (first :: operands) r := ⟨_, reading_classify hwords⟩
    cases hread with
    | push hfirst hs hn hsmall =>
      rw [hall _ fun l => .push hfirst hs hn hsmall]
      exact .ok _
    | pop hfirst hs hn hconstant =>
      rw [hall _ fun l => .pop hfirst hs hn hconstant]
      exact .ok _
    | arithmetic hfirst =>
      rw [hall _ fun l => .arithmetic hfirst]
      exact .ok _
    | unsupported hfirst =>
      rw [hall _ fun l => .unsupported hfirst]
      exact .ok _
    | unrecognized hfirst =>
      rw [hall _ fun l => .unrecognized hfirst]
      exact .ok _
    | unknownSegment hfirst hunknown =>
      rw [hall _ fun l => .unknownSegment hfirst hunknown]
      exact .cause _
    | tooLong hfirst hs hdigits hlength =>
      rw [hall _ fun l => .tooLong hfirst hs hdigits hlength]
      exact .inr ⟨fun _ => .numeral (.tooLong _), fun _ _ => rfl, fun _ => rfl⟩
    | misused hmisused =>
      rw [hall _ fun l => .misused hmisused]
      exact .cause _

namespace Line

variable {line line' : Line}

/-- Lines with the same text hold the same command. -/
theorem classified?_of_ok {c : Command} (h : line.content = line'.content) (hc : line.classified? = some (.ok c)) :
    line'.classified? = some (.ok c) := by
  obtain ⟨hne, hclassify⟩ := classify_of_classified? hc
  rw [classified?, ← h, if_neg hne]
  rcases Command.placeBlind_classify line.content with ⟨c', hall⟩ | ⟨e, -, hall⟩
  · rw [hall, ← hclassify, hall]
  · rw [hall] at hclassify
    cases hclassify

/-- Lines with the same text are refused alike. -/
theorem classified?_of_error {e : Failure} (h : line.content = line'.content) (he : line.classified? = some (.error e)) :
    ∃ e', line'.classified? = some (.error e') ∧ e.Alike e' := by
  obtain ⟨hne, hclassify⟩ := classify_of_classified? he
  rw [classified?, ← h, if_neg hne]
  rcases Command.placeBlind_classify line.content with ⟨c, hall⟩ | ⟨e', halike, hall⟩
  · rw [hall] at hclassify
    cases hclassify
  · rw [hall] at hclassify
    cases hclassify
    exact ⟨_, by rw [hall], halike _ _⟩

theorem classified?_of_none (h : line.content = line'.content) (hnone : line.classified? = none) :
    line'.classified? = none := by
  unfold classified? at hnone ⊢
  rw [← h]
  split at hnone
  next hblank => rw [if_pos hblank]
  · cases hnone

end Line

/-! ## Units -/

namespace Translator

/-- Translators that have done the same and given as many warnings. -/
def Alike (s t : Translator) : Prop :=
  ∃ warnings, warnings.size = s.warnings.size ∧ t = { s with warnings }

/-- Translators that have done the same and are not done yet. -/
def AlikeOpen (s t : Translator) : Prop :=
  s.Alike t ∧ s.finalized = false

variable {s t : Translator}

/-- Lines with the same text are translated alike. -/
theorem matches_translateLine {line line' : Line} (h : line.content = line'.content) (hst : s.AlikeOpen t) :
    Matches Failure.Alike AlikeOpen (translateLine line s) (translateLine line' t) := by
  obtain ⟨⟨warnings, hsize, rfl⟩, hopen⟩ := hst
  have hopen' : ({ s with warnings } : Translator).finalized = false := hopen
  have hout : ∀ code, handedOut { s with warnings } line' code = s.handedOut line code := fun code => by
    rw [handedOut, handedOut, h]
  obtain ⟨r, hr⟩ := exists_outcome line s
  rw [hr.translateLine_eq hopen]
  cases hr with
  | blank hline =>
    rw [Outcome.translateLine_eq hopen' (.blank (Line.classified?_of_none h hline))]
    exact .ok _ ⟨⟨warnings, hsize, rfl⟩, hopen⟩
  | malformed hline =>
    obtain ⟨e', hline', he⟩ := Line.classified?_of_error h hline
    rw [Outcome.translateLine_eq hopen' (.malformed hline')]
    exact .error he ⟨⟨warnings, hsize, rfl⟩, hopen⟩
  | written hline hc hfits =>
    rw [Outcome.translateLine_eq hopen' (.written (Line.classified?_of_ok h hline) hc hfits), hout]
    exact .ok _ ⟨⟨warnings, hsize, rfl⟩, hopen⟩
  | cutShort hline hwide =>
    rw [Outcome.translateLine_eq hopen' (.cutShort (Line.classified?_of_ok h hline) hwide), ← h]
    exact .error rfl ⟨⟨warnings, hsize, rfl⟩, hopen⟩
  | unsupported hline =>
    rw [Outcome.translateLine_eq hopen' (.unsupported (Line.classified?_of_ok h hline)), hout]
    exact .ok _ ⟨⟨_, by simp [hsize], rfl⟩, hopen⟩
  | skipped hline hstrict =>
    rw [Outcome.translateLine_eq hopen' (.skipped (Line.classified?_of_ok h hline) hstrict), hout]
    exact .ok _ ⟨⟨_, by simp [hsize], rfl⟩, hopen⟩
  | objected hline hstrict =>
    rw [Outcome.translateLine_eq hopen' (.objected (Line.classified?_of_ok h hline) hstrict), objection, objection,
      unknownCause, unknownCause, ← h]
    exact .error (.at _ _ _) ⟨⟨warnings, hsize, rfl⟩, hopen⟩

theorem matches_finalize (hst : s.AlikeOpen t) : Matches Failure.Alike Alike (finalize s) (finalize t) := by
  obtain ⟨⟨warnings, hsize, rfl⟩, -⟩ := hst
  obtain ⟨name, ⟨comments, strict, endLoop, labelStart, tempBase, pointerBase⟩, buffer, labels, finalized, before⟩ := s
  cases endLoop with
  | false => exact .ok _ ⟨warnings, hsize, rfl⟩
  | true => exact .ok _ ⟨warnings, hsize, rfl⟩

end Translator

/-- **Units with the same text are translated alike.** -/
theorem translateLines_sameText {lines lines' : List Line} (h : SameText lines lines') (name : String)
    (options : Translator.Options) :
    Matches Failure.Alike Translator.Alike (translateLines name options lines) (translateLines name options lines') := by
  have hunit : ∀ lines, Translator.translateUnit lines =
      List.flatten <$> lines.mapM Translator.translateLine >>= fun code => (code ++ ·) <$> Translator.finalize :=
    fun lines => by simp [Translator.translateUnit]
  show Matches _ _ (Translator.translateUnit lines (.start name options))
    (Translator.translateUnit lines' (.start name options))
  rw [hunit, hunit]
  have hbody : Matches Failure.Alike Translator.AlikeOpen
      ((List.flatten <$> lines.mapM Translator.translateLine) (.start name options))
      ((List.flatten <$> lines'.mapM Translator.translateLine) (.start name options)) := by
    refine h.mapM_flatten (fun line s t hline hst => ?_) (fun _ _ _ _ => Translator.matches_translateLine)
      ⟨⟨_, rfl, rfl⟩, rfl⟩
    rw [Translator.translateLine_eq hst.2, if_pos (by simpa using hline)]
    rfl
  refine hbody.bind (fun _ _ hst => hst.1) fun code s t hst => ?_
  exact (Translator.matches_finalize hst).bind (fun _ _ => id) fun _ _ _ hst => .ok _ hst

/-! ## Programs -/

/-- The word on a line is the same once the line is located, and so is its refusal, places apart. -/
theorem romWord?_locatedAs {line line' : Line} (h : line.LocatedAs line') :
    (∃ word, romWord? line = .ok (some word) ∧ romWord? line' = .ok (some word)) ∨
      ∃ e e', romWord? line = .error e ∧ romWord? line' = .error e' ∧ e.Alike e' := by
  obtain ⟨text, location, rfl, hcontent, rfl⟩ := h
  have hraw : romWord? (.raw text) = some <$> romWord?.parse (stripComment text) none := by
    rw [romWord?, if_neg (by simpa using hcontent)]
  rw [hraw, romWord?, romWord?.parse, romWord?.parse]
  cases Word.ofText? (stripComment text).toList with
  | some word => exact .inl ⟨word, rfl, rfl⟩
  | none => exact .inr ⟨_, _, rfl, rfl, .at _ _ _⟩

theorem romWord?_holdsNothing {line : Line} (h : line.HoldsNothing) : romWord? line = .ok none := by
  obtain ⟨text, rfl, hcontent⟩ := h
  rw [romWord?, if_pos (by simpa using hcontent)]

/-- **A program that is located first is loaded alike.** -/
theorem romWords_located {lines lines' : List Line} (h : Thins Line.HoldsNothing Line.LocatedAs lines lines') :
    (∃ words, romWords lines = .ok words ∧ romWords lines' = .ok words) ∨
      ∃ e e', romWords lines = .error e ∧ romWords lines' = .error e' ∧ e.Alike e' := by
  unfold romWords
  induction h with
  | nil => exact .inl ⟨[], rfl, rfl⟩
  | skip hline _ ih =>
    rw [List.filterMapM_cons, romWord?_holdsNothing hline]
    exact ih
  | keep hline _ ih =>
    rw [List.filterMapM_cons, List.filterMapM_cons]
    rcases romWord?_locatedAs hline with ⟨word, hword, hword'⟩ | ⟨e, e', hfail, hfail', he⟩
    · rw [hword, hword']
      rcases ih with ⟨words, hwords, hwords'⟩ | ⟨e, e', hfail, hfail', he⟩
      · simp only [hwords, hwords', bind, Except.bind]
        exact .inl ⟨word :: words, rfl, rfl⟩
      · simp only [hfail, hfail', bind, Except.bind]
        exact .inr ⟨e, e', rfl, rfl, he⟩
    · rw [hfail, hfail']
      exact .inr ⟨e, e', rfl, rfl, he⟩

/-- **Raw lines and located lines give the same.** For every source and every file it may be from,
its raw lines and its filtered ones are assembled into the same words with the same symbols in the
same order and as many warnings, translated into the same assembly under every name and all options
with as many warnings, and loaded as the same program; or both are refused for the same reason,
with all that it says but the place. -/
theorem raw_and_located_agree (file? : Option Path) (ls : List String) :
    (∀ strict, Matches Failure.Alike
      (fun s t => s.symbols.toList = t.symbols.toList ∧ s.warnings.size = t.warnings.size)
      (assembleLines strict (ls.map .raw)) (assembleLines strict (meaningfulLines file? ls))) ∧
    (∀ name options, Matches Failure.Alike (fun s t => s.warnings.size = t.warnings.size)
      (translateLines name options (ls.map .raw)) (translateLines name options (meaningfulLines file? ls))) ∧
    ((∃ words, romWords (ls.map .raw) = .ok words ∧ romWords (meaningfulLines file? ls) = .ok words) ∨
      ∃ e e', romWords (ls.map .raw) = .error e ∧ romWords (meaningfulLines file? ls) = .error e' ∧ e.Alike e') := by
  have htext := sameText_meaningfulLines file? ls
  refine ⟨fun strict => ?_, fun name options => ?_, romWords_located (thins_meaningfulLines file? ls)⟩
  · refine (assembleLines_sameText htext strict).imp ?_
    rintro s _ ⟨warnings, hsize, rfl⟩
    exact ⟨rfl, hsize.symm⟩
  · refine (translateLines_sameText htext name options).imp ?_
    rintro s _ ⟨warnings, hsize, rfl⟩
    exact hsize.symm

end HackToolchain
