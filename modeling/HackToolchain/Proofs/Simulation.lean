import HackToolchain.Proofs.Traversal
import Mathlib
/-!
Steps that do the same from states that are alike. Two outcomes match if both are the same value or
both are failures of one kind, and the states they leave are alike. Steps are compared part by part:
what follows a step is compared from the states that the step leaves, and a traversal is compared
item by item, where the items that do nothing may be missing on one side. Where some items may tell
the states apart, the runs go side by side up to the first of these.
-/

namespace HackToolchain

variable {ε σ α β : Type} {E : ε → ε → Prop} {S S' : σ → σ → Prop}

/-- The same value, or failures of one kind, and states that are alike. -/
inductive Matches (E : ε → ε → Prop) (S : σ → σ → Prop) : EStateM.Result ε σ α → EStateM.Result ε σ α → Prop
  | ok (a : α) {s t : σ} : S s t → Matches E S (.ok a s) (.ok a t)
  | error {e f : ε} {s t : σ} : E e f → S s t → Matches E S (.error e s) (.error f t)

/-- What follows a step is compared from the states that the step leaves. -/
theorem Matches.bind {x y : EStateM ε σ α} {f g : α → EStateM ε σ β} {s t : σ} (h : Matches E S (x s) (y t))
    (hS : ∀ s t, S s t → S' s t) (hfg : ∀ a s t, S s t → Matches E S' (f a s) (g a t)) :
    Matches E S' ((x >>= f) s) ((y >>= g) t) := by
  show Matches E S' (EStateM.bind x f s) (EStateM.bind y g t)
  rw [EStateM.bind, EStateM.bind]
  generalize x s = r at h ⊢
  generalize y t = r' at h ⊢
  cases h with
  | ok a hst => exact hfg a _ _ hst
  | error hef hst => exact .error hef (hS _ _ hst)

theorem Matches.imp {r r' : EStateM.Result ε σ α} (h : Matches E S r r') (hS : ∀ s t, S s t → S' s t) :
    Matches E S' r r' := by
  cases h with
  | ok a hst => exact .ok a (hS _ _ hst)
  | error hef hst => exact .error hef (hS _ _ hst)

theorem Matches.symm {r r' : EStateM.Result ε σ α} (h : Matches E S r r') (hE : ∀ e f, E e f → E f e)
    (hS : ∀ s t, S s t → S' t s) : Matches E S' r' r := by
  cases h with
  | ok a hst => exact .ok a (hS _ _ hst)
  | error hef hst => exact .error (hE _ _ hef) (hS _ _ hst)

theorem Matches.trans {E' E'' : ε → ε → Prop} {S'' : σ → σ → Prop} {r r' r'' : EStateM.Result ε σ α}
    (h : Matches E S r r') (h' : Matches E' S' r' r'') (hE : ∀ e f g, E e f → E' f g → E'' e g)
    (hS : ∀ s t u, S s t → S' t u → S'' s u) : Matches E'' S'' r r'' := by
  cases h with
  | ok a hst =>
    cases h' with
    | ok _ htu => exact .ok a (hS _ _ _ hst htu)
  | error hef hst =>
    cases h' with
    | error hfg htu => exact .error (hE _ _ _ hef hfg) (hS _ _ _ hst htu)

/-- The second list has the items of the first, as far as they are not skipped. -/
inductive Thins (skipped : α → Prop) (same : α → α → Prop) : List α → List α → Prop
  | nil : Thins skipped same [] []
  | skip {x : α} {xs ys : List α} : skipped x → Thins skipped same xs ys → Thins skipped same (x :: xs) ys
  | keep {x y : α} {xs ys : List α} : same x y → Thins skipped same xs ys → Thins skipped same (x :: xs) (y :: ys)

namespace Thins

variable {skipped : α → Prop} {same : α → α → Prop} {xs ys : List α} {s t : σ}

theorem imp {skipped' : α → Prop} {same' : α → α → Prop} (h : Thins skipped same xs ys)
    (hskipped : ∀ x, skipped x → skipped' x) (hsame : ∀ x y, same x y → same' x y) : Thins skipped' same' xs ys := by
  induction h with
  | nil => exact .nil
  | skip hx _ ih => exact .skip (hskipped _ hx) ih
  | keep hxy _ ih => exact .keep (hsame _ _ hxy) ih

theorem forM {f : α → EStateM ε σ PUnit} (h : Thins skipped same xs ys)
    (hskip : ∀ x s t, skipped x → S s t → f x s = .ok ⟨⟩ s)
    (hsame : ∀ x y s t, same x y → S s t → Matches E S (f x s) (f y t)) (hst : S s t) :
    Matches E S (xs.forM f s) (ys.forM f t) := by
  induction h generalizing s t with
  | nil => exact .ok _ hst
  | @skip x xs ys hx _ ih =>
    have hstep : (x :: xs).forM f s = xs.forM f s := by
      show EStateM.bind (f x) _ s = _
      rw [EStateM.bind, hskip x s t hx hst]
    rw [hstep]
    exact ih hst
  | keep hxy _ ih => exact (hsame _ _ s t hxy hst).bind (fun _ _ => id) fun _ _ _ hst => ih hst

theorem filterMapM {f : α → EStateM ε σ (Option β)} (h : Thins skipped same xs ys)
    (hskip : ∀ x s t, skipped x → S s t → f x s = .ok none s)
    (hsame : ∀ x y s t, same x y → S s t → Matches E S (f x s) (f y t)) (hst : S s t) :
    Matches E S (xs.filterMapM f s) (ys.filterMapM f t) := by
  induction h generalizing s t with
  | nil =>
    rw [List.filterMapM_nil]
    exact .ok _ hst
  | @skip x xs ys hx _ ih =>
    have hstep : (x :: xs).filterMapM f s = xs.filterMapM f s := by
      rw [List.filterMapM_cons]
      show EStateM.bind (f x) _ s = _
      rw [EStateM.bind, hskip x s t hx hst]
    rw [hstep]
    exact ih hst
  | keep hxy _ ih =>
    rw [List.filterMapM_cons, List.filterMapM_cons]
    refine (hsame _ _ s t hxy hst).bind (fun _ _ => id) fun o _ _ hst => ?_
    cases o with
    | none => exact ih hst
    | some b => exact (ih hst).bind (fun _ _ => id) fun _ _ _ hst => .ok _ hst

/-- Results that are lists are joined, so an item that gives the empty list may be missing. -/
theorem mapM_flatten {f : α → EStateM ε σ (List β)} (h : Thins skipped same xs ys)
    (hskip : ∀ x s t, skipped x → S s t → f x s = .ok [] s)
    (hsame : ∀ x y s t, same x y → S s t → Matches E S (f x s) (f y t)) (hst : S s t) :
    Matches E S ((List.flatten <$> xs.mapM f) s) ((List.flatten <$> ys.mapM f) t) := by
  have hcons : ∀ (x : α) (xs : List α), List.flatten <$> (x :: xs).mapM f = (do
      let b ← f x
      let bs ← List.flatten <$> xs.mapM f
      return b ++ bs) := fun x xs => by simp [List.mapM_cons]
  induction h generalizing s t with
  | nil =>
    rw [List.mapM_nil]
    exact .ok _ hst
  | @skip x xs ys hx _ ih =>
    have hstep : (List.flatten <$> (x :: xs).mapM f) s = (List.flatten <$> xs.mapM f) s := by
      rw [hcons]
      show EStateM.bind (f x) _ s = _
      rw [EStateM.bind, hskip x s t hx hst]
      simp
    rw [hstep]
    exact ih hst
  | keep hxy _ ih =>
    rw [hcons, hcons]
    refine (hsame _ _ s t hxy hst).bind (fun _ _ => id) fun _ _ _ hst => ?_
    exact (ih hst).bind (fun _ _ => id) fun _ _ _ hst => .ok _ hst

end Thins

/-! ## Runs side by side -/

/-- How two runs over the same items compare: they give the same and leave states that are alike, or both
fail, or both come to an item that parts them. -/
inductive SideBySide (f : α → EStateM ε σ β) (S : σ → σ → Prop) (parts : α → Prop) (s t : σ) (xs : List α) : Prop
  | together {bs : List β} {s' t' : σ} : Traverses f s xs bs s' → Traverses f t xs bs t' → S s' t' →
    SideBySide f S parts s t xs
  | failing {e e' : ε} {s' t' : σ} : Fails f s xs e s' → Fails f t xs e' t' → SideBySide f S parts s t xs
  | parting {before : List α} {x : α} {after : List α} {bs : List β} {s' t' : σ} : xs = before ++ x :: after →
    Traverses f s before bs s' → Traverses f t before bs t' → S s' t' → parts x → SideBySide f S parts s t xs

/-- Runs go side by side as long as no item parts them. -/
theorem sideBySide {f : α → EStateM ε σ β} {parts : α → Prop}
    (hstep : ∀ x s t, S s t → Matches E S (f x s) (f x t) ∨ parts x) (xs : List α) {s t : σ} (hst : S s t) :
    SideBySide f S parts s t xs := by
  induction xs generalizing s t with
  | nil => exact .together (.nil s) (.nil t) hst
  | cons x xs ih =>
    rcases hstep x s t hst with hx | hx
    · generalize hs : f x s = r at hx
      generalize ht : f x t = r' at hx
      cases hx with
      | error => exact .failing (Fails.cons_iff.2 (.inl hs)) (Fails.cons_iff.2 (.inl ht))
      | ok b hst' =>
        cases ih hst' with
        | together hs' ht' hst'' => exact .together (.cons hs hs') (.cons ht ht') hst''
        | failing hs' ht' =>
          exact .failing (Fails.cons_iff.2 (.inr ⟨_, _, hs, hs'⟩)) (Fails.cons_iff.2 (.inr ⟨_, _, ht, ht'⟩))
        | parting hxs hs' ht' hst'' hparts =>
          exact .parting (congrArg (x :: ·) hxs) (.cons hs hs') (.cons ht ht') hst'' hparts
    · exact .parting rfl (.nil s) (.nil t) hst hx

end HackToolchain
