import HackToolchain.Proofs.LineOutcome
import Mathlib
/-!
Whether a unit is translated does not depend on its name, on remarks, on what labels begin with or on
the loop at its end. Two translators that agree in the options that can make them refuse a command
come to the same verdict on every line, though they write different code: both go on, or both fail
with the same failure.
-/

namespace HackToolchain

/-! ## Steps that come to the same verdict -/

/-- Both steps have succeeded, whatever they give, and the states they leave are alike; or both have
failed with the same failure. -/
inductive SameVerdict {ε σ α β : Type} (S : σ → σ → Prop) : EStateM.Result ε σ α → EStateM.Result ε σ β → Prop
  | ok {a : α} {b : β} {s t : σ} : S s t → SameVerdict S (.ok a s) (.ok b t)
  | error {s t : σ} (e : ε) : SameVerdict S (.error e s) (.error e t)

namespace SameVerdict

variable {ε σ α β γ δ : Type} {S : σ → σ → Prop} {s t : σ}

theorem bind {x : EStateM ε σ α} {y : EStateM ε σ β} {f : α → EStateM ε σ γ} {g : β → EStateM ε σ δ}
    (h : SameVerdict S (x s) (y t)) (hfg : ∀ a b s t, S s t → SameVerdict S (f a s) (g b t)) :
    SameVerdict S ((x >>= f) s) ((y >>= g) t) := by
  show SameVerdict S (EStateM.bind x f s) (EStateM.bind y g t)
  rw [EStateM.bind, EStateM.bind]
  generalize x s = r at h ⊢
  generalize y t = r' at h ⊢
  cases h with
  | ok hst => exact hfg _ _ _ _ hst
  | error e => exact .error e

theorem mapM {f : α → EStateM ε σ β} (hf : ∀ x s t, S s t → SameVerdict S (f x s) (f x t)) (xs : List α) (hst : S s t) :
    SameVerdict S (xs.mapM f s) (xs.mapM f t) := by
  induction xs generalizing s t with
  | nil =>
    rw [List.mapM_nil]
    exact .ok hst
  | cons x xs ih =>
    rw [List.mapM_cons]
    exact (hf x s t hst).bind fun _ _ _ _ hst => (ih hst).bind fun _ _ _ _ hst => .ok hst

end SameVerdict

/-! ## The verdict on a unit -/

namespace Translator

/-- Translators that agree in what can make them refuse a command. -/
structure Akin (t t' : Translator) : Prop where
  strict : t.options.strict = t'.options.strict
  tempBase : t.options.tempBase = t'.options.tempBase
  pointerBase : t.options.pointerBase = t'.options.pointerBase
  finalized : t.finalized = t'.finalized

variable {t t' : Translator}

theorem Akin.tooWide_iff (h : Akin t t') (c : Command) : c.TooWide t.options ↔ c.TooWide t'.options := by
  have hbase : ∀ segment : Segment, segment.fixedBase? t.options = segment.fixedBase? t'.options := by
    intro segment
    cases segment <;> simp [Segment.fixedBase?, h.tempBase, h.pointerBase]
  cases c with
  | push | pop => simp only [Command.TooWide, TooWide, hbase]
  | arithmetic | unsupported | unrecognized => exact Iff.rfl

theorem translateLine_of_finalized {line : Line} (h : t.finalized = true) :
    translateLine line t = .error (.breach .translatorFinalized) t := by
  show (if t.finalized then _ else _ : Translating (List String)) t = _
  rw [if_pos h]
  rfl

theorem sameVerdict_translateLine (line : Line) (t t' : Translator) (h : Akin t t') :
    SameVerdict Akin (translateLine line t) (translateLine line t') := by
  cases hfinalized : t.finalized with
  | true =>
    rw [translateLine_of_finalized hfinalized, translateLine_of_finalized (h.finalized ▸ hfinalized)]
    exact .error _
  | false =>
    have hopen : t'.finalized = false := h.finalized ▸ hfinalized
    obtain ⟨r, hr⟩ := exists_outcome line t
    rw [hr.translateLine_eq hfinalized]
    cases hr with
    | blank hline =>
      rw [Outcome.translateLine_eq hopen (.blank hline)]
      exact .ok h
    | malformed hline =>
      rw [Outcome.translateLine_eq hopen (.malformed hline)]
      exact .error _
    | written hline hc hfits =>
      rw [Outcome.translateLine_eq hopen (.written hline hc (mt (h.tooWide_iff _).2 hfits))]
      exact .ok { h with }
    | cutShort hline hwide =>
      rw [Outcome.translateLine_eq hopen (.cutShort hline ((h.tooWide_iff _).1 hwide))]
      exact .error _
    | unsupported hline =>
      rw [Outcome.translateLine_eq hopen (.unsupported hline)]
      exact .ok { h with }
    | skipped hline hstrict =>
      rw [Outcome.translateLine_eq hopen (.skipped hline (h.strict ▸ hstrict))]
      exact .ok { h with }
    | objected hline hstrict =>
      rw [Outcome.translateLine_eq hopen (.objected hline (h.strict ▸ hstrict))]
      exact .error _

theorem finalize_ok (t : Translator) : ∃ out, finalize t = .ok out { t with buffer := #[], finalized := true } := by
  obtain ⟨name, ⟨comments, strict, endLoop, labelStart, tempBase, pointerBase⟩, buffer, labels, finalized, warnings⟩ := t
  cases endLoop with
  | false => exact ⟨_, rfl⟩
  | true => exact ⟨_, rfl⟩

/-- **The verdict on a unit depends on few of the options.** -/
theorem sameVerdict_translateLines (name name' : String) {options options' : Options}
    (hstrict : options.strict = options'.strict) (htemp : options.tempBase = options'.tempBase)
    (hpointer : options.pointerBase = options'.pointerBase) (lines : List Line) :
    SameVerdict Akin (translateLines name options lines) (translateLines name' options' lines) := by
  have hstart : Akin (start name options) (start name' options') := ⟨hstrict, htemp, hpointer, rfl⟩
  refine (SameVerdict.mapM sameVerdict_translateLine lines hstart).bind fun _ _ s t hst => ?_
  obtain ⟨out, hout⟩ := finalize_ok s
  obtain ⟨out', hout'⟩ := finalize_ok t
  refine SameVerdict.bind ?_ fun _ _ _ _ h => .ok h
  rw [hout, hout']
  exact .ok { hst with finalized := rfl }

end Translator

end HackToolchain
