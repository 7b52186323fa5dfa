import Mathlib
/-!
Steps that may fail, done for one item after another. A traversal that succeeds is a chain of
successful steps; one that fails is such a chain over the items before some item, and the failure
of the step on that item. The three ways in which sources are traversed (for the effect, for all
results, for the results there are) come down to the same chain. Calls that are made whatever became
of the calls before them go on from the state that each of them leaves.
-/

namespace HackToolchain

variable {ε σ α β : Type}

/-- Whether a step has succeeded. -/
def succeeded : EStateM.Result ε σ α → Bool
  | .ok _ _ => true
  | .error _ _ => false

theorem exists_ok_of_succeeded {r : EStateM.Result ε σ α} (h : succeeded r = true) : ∃ a s, r = .ok a s := by
  cases r with
  | ok a s => exact ⟨a, s, rfl⟩
  | error e s => cases h

/-- What a step has failed with, if it has. -/
def failure? : EStateM.Result ε σ α → Option ε
  | .ok _ _ => none
  | .error e _ => some e

theorem exists_error_of_failure? {r : EStateM.Result ε σ α} {e : ε} (h : failure? r = some e) :
    ∃ s, r = .error e s := by
  cases r with
  | ok a s => cases h
  | error e' s =>
    cases h
    exact ⟨s, rfl⟩

theorem bind_eq_ok {x : EStateM ε σ α} {f : α → EStateM ε σ β} {s s' : σ} {b : β} :
    (x >>= f) s = .ok b s' ↔ ∃ a t, x s = .ok a t ∧ f a t = .ok b s' := by
  show EStateM.bind x f s = _ ↔ _
  rw [EStateM.bind]
  cases x s with
  | ok a t => simp
  | error e t => simp

theorem bind_eq_error {x : EStateM ε σ α} {f : α → EStateM ε σ β} {s s' : σ} {e : ε} :
    (x >>= f) s = .error e s' ↔ x s = .error e s' ∨ ∃ a t, x s = .ok a t ∧ f a t = .error e s' := by
  show EStateM.bind x f s = _ ↔ _
  rw [EStateM.bind]
  cases x s with
  | ok a t => simp
  | error e t => simp

theorem pure_eq_ok {a b : α} {s s' : σ} : (pure a : EStateM ε σ α) s = .ok b s' ↔ a = b ∧ s = s' := by
  show EStateM.Result.ok a s = _ ↔ _
  simp

theorem pure_ne_error {a : α} {s s' : σ} {e : ε} : ((pure a : EStateM ε σ α) s = .error e s') ↔ False := by
  show EStateM.Result.ok a s = _ ↔ _
  simp

theorem ofExcept_eq_error {r : Except ε α} {s s' : σ} {e : ε} :
    (MonadExcept.ofExcept r : EStateM ε σ α) s = .error e s' ↔ r = .error e ∧ s = s' := by
  cases r with
  | ok a =>
    show EStateM.Result.ok a s = _ ↔ _
    simp
  | error f =>
    show EStateM.Result.error f s = _ ↔ _
    simp

/-- From state `s`, the step succeeds on the items in order, with these results, and ends in the
last state. -/
inductive Traverses (f : α → EStateM ε σ β) : σ → List α → List β → σ → Prop
  | nil (s : σ) : Traverses f s [] [] s
  | cons {s t u : σ} {x : α} {xs : List α} {b : β} {bs : List β} :
    f x s = .ok b t → Traverses f t xs bs u → Traverses f s (x :: xs) (b :: bs) u

/-- From state `s`, the step succeeds on some items, and fails with `e` on the one that follows. -/
def Fails (f : α → EStateM ε σ β) (s : σ) (xs : List α) (e : ε) (s' : σ) : Prop :=
  ∃ before x after bs t, xs = before ++ x :: after ∧ Traverses f s before bs t ∧ f x t = .error e s'

namespace Traverses

variable {f : α → EStateM ε σ β} {s t u s' : σ} {x : α} {xs ys : List α} {bs cs : List β}

theorem cons_iff : Traverses f s (x :: xs) bs s' ↔
    ∃ b t cs, bs = b :: cs ∧ f x s = .ok b t ∧ Traverses f t xs cs s' := by
  constructor
  · rintro (_ | ⟨hx, hxs⟩)
    exact ⟨_, _, _, rfl, hx, hxs⟩
  · rintro ⟨b, t, cs, rfl, hx, hxs⟩
    exact .cons hx hxs

end Traverses

theorem Fails.cons_iff {f : α → EStateM ε σ β} {s s' : σ} {x : α} {xs : List α} {e : ε} :
    Fails f s (x :: xs) e s' ↔ f x s = .error e s' ∨ ∃ b t, f x s = .ok b t ∧ Fails f t xs e s' := by
  constructor
  · rintro ⟨before, y, after, bs, t, heq, hbefore, hy⟩
    cases before with
    | nil =>
      obtain ⟨rfl, rfl⟩ : x = y ∧ xs = after := by simpa using heq
      cases hbefore
      exact .inl hy
    | cons z before =>
      obtain ⟨rfl, rfl⟩ : x = z ∧ xs = before ++ y :: after := by simpa using heq
      obtain ⟨b, t', cs, rfl, hz, hrest⟩ := Traverses.cons_iff.1 hbefore
      exact .inr ⟨b, t', hz, before, y, after, cs, t, rfl, hrest, hy⟩
  · rintro (h | ⟨b, t, hx, before, y, after, bs, t', rfl, hbefore, hy⟩)
    · exact ⟨[], x, xs, [], s, rfl, .nil s, h⟩
    · exact ⟨x :: before, y, after, b :: bs, t', rfl, .cons hx hbefore, hy⟩

theorem not_fails_nil {f : α → EStateM ε σ β} {s s' : σ} {e : ε} : ¬ Fails f s [] e s' := by
  rintro ⟨before, x, after, bs, t, heq, -⟩
  simp at heq

/-! ## The traversals of the library -/

theorem forM_eq_ok {f : α → EStateM ε σ PUnit} {xs : List α} {s s' : σ} {u : PUnit} :
    xs.forM f s = .ok u s' ↔ ∃ bs, Traverses f s xs bs s' := by
  induction xs generalizing s with
  | nil =>
    show EStateM.Result.ok _ s = _ ↔ _
    constructor
    · intro h
      cases h
      exact ⟨[], .nil _⟩
    · rintro ⟨bs, h⟩
      cases h
      rfl
  | cons x xs ih =>
    show (f x >>= fun _ => xs.forM f) s = _ ↔ _
    simp only [bind_eq_ok, ih, Traverses.cons_iff]
    grind

theorem forM_eq_error {f : α → EStateM ε σ PUnit} {xs : List α} {s s' : σ} {e : ε} :
    xs.forM f s = .error e s' ↔ Fails f s xs e s' := by
  induction xs generalizing s with
  | nil =>
    show EStateM.Result.ok _ s = _ ↔ _
    simp [not_fails_nil]
  | cons x xs ih =>
    show (f x >>= fun _ => xs.forM f) s = _ ↔ _
    simp only [bind_eq_error, ih, Fails.cons_iff]

theorem mapM_eq_ok {f : α → EStateM ε σ β} {xs : List α} {s s' : σ} {bs : List β} :
    xs.mapM f s = .ok bs s' ↔ Traverses f s xs bs s' := by
  induction xs generalizing s s' bs with
  | nil =>
    rw [List.mapM_nil, pure_eq_ok]
    constructor
    · rintro ⟨rfl, rfl⟩
      exact .nil s
    · rintro ⟨⟩
      exact ⟨rfl, rfl⟩
  | cons x xs ih =>
    rw [List.mapM_cons]
    simp only [bind_eq_ok, pure_eq_ok, ih, Traverses.cons_iff]
    grind

theorem mapM_eq_error {f : α → EStateM ε σ β} {xs : List α} {s s' : σ} {e : ε} :
    xs.mapM f s = .error e s' ↔ Fails f s xs e s' := by
  induction xs generalizing s with
  | nil =>
    rw [List.mapM_nil]
    simp [pure_ne_error, not_fails_nil]
  | cons x xs ih =>
    rw [List.mapM_cons]
    simp only [bind_eq_error, ih, pure_ne_error, and_false, exists_false, or_false, Fails.cons_iff]

theorem filterMapM_eq_ok {f : α → EStateM ε σ (Option β)} {xs : List α} {s s' : σ} {bs : List β} :
    xs.filterMapM f s = .ok bs s' ↔ ∃ os, Traverses f s xs os s' ∧ bs = os.reduceOption := by
  induction xs generalizing s s' bs with
  | nil =>
    rw [List.filterMapM_nil, pure_eq_ok]
    constructor
    · rintro ⟨rfl, rfl⟩
      exact ⟨[], .nil s, rfl⟩
    · rintro ⟨os, ⟨⟩, rfl⟩
      exact ⟨rfl, rfl⟩
  | cons x xs ih =>
    rw [List.filterMapM_cons]
    simp only [bind_eq_ok, Traverses.cons_iff]
    constructor
    · rintro ⟨o, t, hx, h⟩
      cases o with
      | none =>
        obtain ⟨os, hos, rfl⟩ := ih.1 h
        exact ⟨none :: os, ⟨none, t, os, rfl, hx, hos⟩, List.reduceOption_cons_of_none os |>.symm⟩
      | some b =>
        obtain ⟨cs, u, hrest, hb⟩ := bind_eq_ok.1 h
        obtain ⟨rfl, rfl⟩ := pure_eq_ok.1 hb
        obtain ⟨os, hos, rfl⟩ := ih.1 hrest
        exact ⟨some b :: os, ⟨some b, t, os, rfl, hx, hos⟩, List.reduceOption_cons_of_some b os |>.symm⟩
    · rintro ⟨_, ⟨o, t, os, rfl, hx, hos⟩, rfl⟩
      refine ⟨o, t, hx, ?_⟩
      cases o with
      | none => exact ih.2 ⟨os, hos, List.reduceOption_cons_of_none os⟩
      | some b =>
        exact bind_eq_ok.2 ⟨_, _, ih.2 ⟨os, hos, rfl⟩, pure_eq_ok.2 ⟨(List.reduceOption_cons_of_some b os).symm, rfl⟩⟩

theorem filterMapM_eq_error {f : α → EStateM ε σ (Option β)} {xs : List α} {s s' : σ} {e : ε} :
    xs.filterMapM f s = .error e s' ↔ Fails f s xs e s' := by
  induction xs generalizing s with
  | nil =>
    rw [List.filterMapM_nil]
    simp [pure_ne_error, not_fails_nil]
  | cons x xs ih =>
    rw [List.filterMapM_cons]
    simp only [bind_eq_error, Fails.cons_iff]
    refine or_congr_right (exists_congr fun o => exists_congr fun t => and_congr_right fun _ => ?_)
    cases o with
    | none => exact ih
    | some b => simp only [bind_eq_error, ih, pure_ne_error, and_false, exists_false, or_false]

theorem filterMapM_append (f : α → EStateM ε σ (Option β)) (xs ys : List α) :
    (xs ++ ys).filterMapM f = do
      let bs ← xs.filterMapM f
      let cs ← ys.filterMapM f
      return bs ++ cs := by
  induction xs with
  | nil => simp
  | cons x xs ih =>
    rw [List.cons_append, List.filterMapM_cons, List.filterMapM_cons, bind_assoc]
    refine congrArg (f x >>= ·) (funext fun o => ?_)
    cases o with
    | none => exact ih
    | some b => simp [ih]

/-! ## Steps taken whatever fails -/

/-- The state that a step leaves, whether it has succeeded or not. -/
def leftBy : EStateM.Result ε σ α → σ
  | .ok _ s => s
  | .error _ s => s

theorem leftBy_bind_pure (x : EStateM ε σ α) (f : α → β) (s : σ) :
    leftBy ((x >>= fun a => pure (f a)) s) = leftBy (x s) := by
  show leftBy (EStateM.bind x _ s) = _
  rw [EStateM.bind]
  cases x s <;> rfl

/-- The state after steps on the items in order, each taken whatever became of the one before. -/
def leftAfter (f : α → EStateM ε σ β) (s : σ) (xs : List α) : σ :=
  xs.foldl (fun s x => leftBy (f x s)) s

theorem leftAfter_cons (f : α → EStateM ε σ β) (s : σ) (x : α) (xs : List α) :
    leftAfter f s (x :: xs) = leftAfter f (leftBy (f x s)) xs :=
  rfl

theorem leftAfter_append (f : α → EStateM ε σ β) (s : σ) (xs ys : List α) :
    leftAfter f s (xs ++ ys) = leftAfter f (leftAfter f s xs) ys :=
  List.foldl_append

/-- What holds at first and is kept by every step holds after all of them. -/
theorem leftAfter_induction {f : α → EStateM ε σ β} {P : σ → Prop} (hstep : ∀ x s, P s → P (leftBy (f x s)))
    (xs : List α) {s : σ} (hs : P s) : P (leftAfter f s xs) := by
  induction xs generalizing s with
  | nil => exact hs
  | cons x xs ih => exact ih (hstep x s hs)

/-- What steps fail with, each taken whatever became of the one before. -/
def failures (f : α → EStateM ε σ β) (s : σ) : List α → List ε
  | [] => []
  | x :: xs => match f x s with
    | .ok _ t => failures f t xs
    | .error e t => e :: failures f t xs

/-- The items on which steps succeed, each taken whatever became of the one before, with what they
give. -/
def returned (f : α → EStateM ε σ β) (s : σ) : List α → List (α × β)
  | [] => []
  | x :: xs => match f x s with
    | .ok b t => (x, b) :: returned f t xs
    | .error _ t => returned f t xs

variable {f : α → EStateM ε σ β} {s t : σ} {x : α}

theorem failures_cons_ok {b : β} (h : f x s = .ok b t) (xs : List α) : failures f s (x :: xs) = failures f t xs := by
  rw [failures, h]

theorem failures_cons_error {e : ε} (h : f x s = .error e t) (xs : List α) :
    failures f s (x :: xs) = e :: failures f t xs := by
  rw [failures, h]

theorem returned_cons_ok {b : β} (h : f x s = .ok b t) (xs : List α) :
    returned f s (x :: xs) = (x, b) :: returned f t xs := by
  rw [returned, h]

theorem returned_cons_error {e : ε} (h : f x s = .error e t) (xs : List α) :
    returned f s (x :: xs) = returned f t xs := by
  rw [returned, h]

theorem failures_append (f : α → EStateM ε σ β) (s : σ) (xs ys : List α) :
    failures f s (xs ++ ys) = failures f s xs ++ failures f (leftAfter f s xs) ys := by
  induction xs generalizing s with
  | nil => rfl
  | cons x xs ih =>
    rw [List.cons_append, leftAfter_cons]
    cases h : f x s with
    | ok b t => rw [failures_cons_ok h, failures_cons_ok h, ih, leftBy]
    | error e t => rw [failures_cons_error h, failures_cons_error h, ih, leftBy, List.cons_append]

end HackToolchain
