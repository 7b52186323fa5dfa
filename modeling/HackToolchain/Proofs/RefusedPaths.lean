import HackToolchain.Proofs.FileTree
import HackToolchain.Proofs.Traversal
import Mathlib
/-!
Why an operation on files fails. A path is refused if it holds the character that ends names for the
system, and it is refused for its length; everything else that can be wrong is that something on
the way is missing or stands in the way, or that a right is lacking. So no operation fails in a way
for which there is no report, unless its path holds that character.
-/

namespace HackToolchain

/-! ## Paths that are refused -/

namespace Path

variable {p q : Path}

/-- One of the names holds the character that ends names for the system. -/
def HoldsNul (p : Path) : Prop :=
  ∃ name ∈ p.names, Char.ofNat 0 ∈ name.toList

/-- The path or one of its names has more bytes than the system takes. -/
def TooLong (p : Path) : Prop :=
  FileTree.pathLimit ≤ p.text.utf8ByteSize ∨ ∃ name ∈ p.names, FileTree.nameLimit < name.utf8ByteSize

theorem mem_intercalate {α : Type} {sep : List α} {ls : List (List α)} {x : α} (h : x ∉ sep) :
    x ∈ sep.intercalate ls ↔ ∃ l ∈ ls, x ∈ l := by
  induction ls with
  | nil => simp [List.intercalate]
  | cons l ls ih =>
    cases ls with
    | nil => simp [List.intercalate]
    | cons l' ls =>
      rw [List.intercalate_cons_cons, List.mem_append, List.mem_append, ih]
      simp [h]

theorem contains_text (p : Path) : p.text.contains (Char.ofNat 0) = true ↔ p.HoldsNul := by
  rw [String.contains_char_eq, decide_eq_true_eq, text, HoldsNul]
  split
  next hempty =>
    simp only [Bool.and_eq_true, List.isEmpty_iff] at hempty
    rw [hempty.2]
    simp only [List.not_mem_nil, false_and, exists_false, iff_false]
    decide
  · have hanchor : Char.ofNat 0 ∉ p.anchor.text.toList := by cases p.anchor <;> decide
    rw [String.toList_append, List.mem_append, String.toList_intercalate, mem_intercalate (by decide)]
    simp [hanchor]

theorem mem_of_mem_components {begun cs : List Char} {name : String} {c : Char} (hname : name ∈ components begun cs)
    (hc : c ∈ name.toList) : c ∈ begun ∨ c ∈ cs := by
  induction cs generalizing begun with
  | nil =>
    rw [components, List.mem_singleton] at hname
    rw [hname, String.toList_ofList, List.mem_reverse] at hc
    exact .inl hc
  | cons d cs ih =>
    rw [components] at hname
    split at hname
    · rcases List.mem_cons.1 hname with rfl | hname
      · rw [String.toList_ofList, List.mem_reverse] at hc
        exact .inl hc
      · exact .inr (List.mem_cons_of_mem d ((ih hname).resolve_left List.not_mem_nil))
    · rcases ih hname with hbegun | hcs
      · rcases List.mem_cons.1 hbegun with rfl | hbegun
        · exact .inr List.mem_cons_self
        · exact .inl hbegun
      · exact .inr (List.mem_cons_of_mem d hcs)

/-- The names of a path that is read hold no character but those of the text. -/
theorem mem_of_holdsNul_ofString {s : String} (h : (ofString s).HoldsNul) : Char.ofNat 0 ∈ s.toList := by
  obtain ⟨name, hname, hnul⟩ := h
  exact (mem_of_mem_components (List.mem_filter.1 hname).1 hnul).resolve_left List.not_mem_nil

theorem holdsNul_of_withSuffix? {suffix : String} (hsuffix : Char.ofNat 0 ∉ suffix.toList)
    (hwith : p.withSuffix? suffix = some q) (h : q.HoldsNul) : p.HoldsNul := by
  rw [withSuffix?] at hwith
  split at hwith
  · cases hwith
  next hnamed =>
  cases hwith
  obtain ⟨name, hname, hnul⟩ := h
  rcases List.mem_append.1 hname with hname | hname
  · exact ⟨name, List.mem_of_mem_dropLast hname, hnul⟩
  · rw [List.mem_singleton.1 hname, String.toList_append, List.mem_append] at hnul
    have hstem : Char.ofNat 0 ∈ p.name.toList := by
      rw [name_eq_append, String.toList_append]
      exact List.mem_append_left _ (hnul.resolve_right hsuffix)
    cases hlast : p.names.getLast? with
    | none =>
      rw [Path.name, hlast] at hnamed
      exact absurd rfl hnamed
    | some last =>
      rw [Path.name, hlast] at hstem
      exact ⟨last, List.mem_of_getLast? hlast, hstem⟩

end Path

/-! ## Operations that fail -/

namespace FileTree

variable {t u : FileTree} {p : Path} {e : Failure} {α β : Type}

theorem checkPath_eq_error (h : checkPath p = .error e) :
    e = .nulInPath ∧ p.HoldsNul ∨ e = .inaccessible (.nameTooLong p.text) ∧ p.TooLong := by
  rw [checkPath] at h
  split at h
  next hnul =>
    cases h
    exact .inl ⟨rfl, p.contains_text.1 hnul⟩
  split at h
  next hlong =>
    cases h
    exact .inr ⟨rfl, .inl hlong⟩
  · cases h

theorem checkSearch_eq_error {file : String} {place : Place} (h : t.checkSearch file place = .error e) :
    ∃ fault, e = .inaccessible fault ∧ (fault.leadsNowhere = true ∨
      fault = .denied file ∧ t.node? place = some .directory ∧ (t.rights place).search = false) := by
  rw [checkSearch] at h
  split at h
  · cases h
    exact ⟨_, rfl, .inl rfl⟩
  · cases h
    exact ⟨_, rfl, .inl rfl⟩
  next hdirectory =>
    split at h
    · cases h
    next hsearch =>
      cases h
      exact ⟨_, rfl, .inr ⟨rfl, hdirectory, by simpa using hsearch⟩⟩

/-- Names lead through a directory in which nothing may be looked up. -/
def Bars (t : FileTree) (file : String) (place : Place) (names : List String) : Prop :=
  ∃ above q, above <+: names.dropLast ∧ t.walk file place above = .ok q ∧ t.node? q = some .directory ∧
    (t.rights q).search = false

/-- A path leads through a directory in which nothing may be looked up. -/
def Barred (t : FileTree) (p : Path) : Prop :=
  t.Bars p.text (t.origin p) p.names

/-- Why names cannot be followed: they lead nowhere, one of them is too long, or they are barred. -/
inductive Obstacle (t : FileTree) (file : String) (place : Place) (names : List String) : AccessFault → Prop
  | nowhere {fault : AccessFault} : fault.leadsNowhere = true → Obstacle t file place names fault
  | length {name : String} : name ∈ names → nameLimit < name.utf8ByteSize →
    Obstacle t file place names (.nameTooLong file)
  | search : t.Bars file place names → Obstacle t file place names (.denied file)

theorem Obstacle.cons {file name : String} {place q : Place} {rest : List String} {fault : AccessFault}
    (hstep : t.step file place name = .ok q) (hrest : rest ≠ []) (h : Obstacle t file q rest fault) :
    Obstacle t file place (name :: rest) fault := by
  cases h with
  | nowhere hlost => exact .nowhere hlost
  | length hmem hlong => exact .length (List.mem_cons_of_mem name hmem) hlong
  | search hbars =>
    obtain ⟨above, r, ⟨below, hnames⟩, hwalk, hclosed⟩ := hbars
    refine .search ⟨name :: above, r, ⟨below, ?_⟩, ?_, hclosed⟩
    · rw [List.dropLast_cons_of_ne_nil hrest, ← hnames, List.cons_append]
    · rw [walk_cons, hstep]
      exact hwalk

theorem obstacle_of_step {file name : String} {place : Place} (rest : List String)
    (h : t.step file place name = .error e) :
    ∃ fault, e = .inaccessible fault ∧ Obstacle t file place (name :: rest) fault := by
  rw [step] at h
  cases hsearch : t.checkSearch file place with
  | error failure =>
    rw [hsearch] at h
    cases h
    obtain ⟨fault, he, hlost | ⟨rfl, hclosed⟩⟩ := checkSearch_eq_error hsearch
    · exact ⟨fault, he, .nowhere hlost⟩
    · exact ⟨_, he, .search ⟨[], place, ⟨_, rfl⟩, rfl, hclosed⟩⟩
  | ok _ =>
    rw [hsearch] at h
    simp only [bind, Except.bind] at h
    split at h
    · cases h
    split at h
    next hlong =>
      cases h
      exact ⟨_, rfl, .length List.mem_cons_self hlong⟩
    split at h
    · cases h
    · cases h
      exact ⟨_, rfl, .nowhere rfl⟩

theorem obstacle_of_walk {file : String} {place : Place} {names : List String}
    (h : t.walk file place names = .error e) :
    ∃ fault, e = .inaccessible fault ∧ Obstacle t file place names fault := by
  induction names generalizing place with
  | nil => cases h
  | cons name rest ih =>
    rw [walk_cons] at h
    cases hstep : t.step file place name with
    | error failure =>
      rw [hstep] at h
      cases h
      exact obstacle_of_step rest hstep
    | ok q =>
      rw [hstep] at h
      obtain ⟨fault, he, hobstacle⟩ := ih h
      have hrest : rest ≠ [] := by
        rintro rfl
        cases h
      exact ⟨fault, he, hobstacle.cons hstep hrest⟩

/-- Why a path is not followed. -/
theorem start_eq_error (h : t.start p = .error e) : e = .nulInPath ∧ p.HoldsNul ∨
    ∃ fault, e = .inaccessible fault ∧
      (fault.leadsNowhere = true ∨ fault = .nameTooLong p.text ∧ p.TooLong ∨ fault = .denied p.text ∧ t.Barred p) := by
  rw [start] at h
  cases hcheck : checkPath p with
  | error failure =>
    rw [hcheck] at h
    cases h
    rcases checkPath_eq_error hcheck with hnul | ⟨he, hlong⟩
    · exact .inl hnul
    · exact .inr ⟨_, he, .inr (.inl ⟨rfl, hlong⟩)⟩
  | ok _ =>
    rw [hcheck] at h
    simp only [bind, Except.bind] at h
    split at h
    next hdot =>
      cases hsearch : t.checkSearch p.text t.here with
      | error failure =>
        rw [hsearch] at h
        cases h
        have horigin : t.origin p = t.here := by rw [origin, hdot.1]
        obtain ⟨fault, he, hlost | ⟨rfl, hclosed⟩⟩ := checkSearch_eq_error hsearch
        · exact .inr ⟨fault, he, .inl hlost⟩
        · exact .inr ⟨_, he, .inr (.inr ⟨rfl, [], t.here, ⟨_, rfl⟩, by rw [horigin]; rfl, hclosed⟩)⟩
      | ok _ =>
        rw [hsearch] at h
        cases h
    · cases h

theorem origin_of_start {place : Place} (h : t.start p = .ok place) : t.origin p = place := by
  simp only [start, bind, Except.bind] at h
  split at h
  · cases h
  split at h
  · split at h
    · cases h
    · exact Except.ok.inj h
  · exact Except.ok.inj h

theorem resolve_eq_error (h : t.resolve p = .error e) : e = .nulInPath ∧ p.HoldsNul ∨
    ∃ fault, e = .inaccessible fault ∧
      (fault.leadsNowhere = true ∨ fault = .nameTooLong p.text ∧ p.TooLong ∨ fault = .denied p.text ∧ t.Barred p) := by
  rw [resolve] at h
  cases hstart : t.start p with
  | error failure =>
    rw [hstart] at h
    cases h
    exact start_eq_error hstart
  | ok place =>
    rw [hstart] at h
    obtain ⟨fault, he, hobstacle⟩ := obstacle_of_walk h
    rw [← origin_of_start hstart] at hobstacle
    refine .inr ⟨fault, he, ?_⟩
    cases hobstacle with
    | nowhere hlost => exact .inl hlost
    | length hmem hlong => exact .inr (.inl ⟨rfl, .inr ⟨_, hmem, hlong⟩⟩)
    | search hbars => exact .inr (.inr ⟨rfl, hbars⟩)

/-- Only its length, or a directory on the way, keeps a path from being looked up. -/
theorem present_eq_error (h : t.present p = .error e) :
    e = .inaccessible (.nameTooLong p.text) ∧ p.TooLong ∨ e = .inaccessible (.denied p.text) ∧ t.Barred p := by
  rw [present] at h
  split at h
  · cases h
  · cases h
  next fault hresolve =>
    split at h
    · cases h
    next hlost =>
      cases h
      rcases resolve_eq_error hresolve with ⟨hnul, -⟩ | ⟨fault', hfault', hlost' | ⟨rfl, hlong⟩ | ⟨rfl, hbarred⟩⟩
      · cases hnul
      · cases hfault'
        exact absurd hlost' hlost
      · cases hfault'
        exact .inl ⟨rfl, hlong⟩
      · cases hfault'
        exact .inr ⟨rfl, hbarred⟩
  next hnul hinaccessible hresolve =>
    rcases resolve_eq_error hresolve with ⟨rfl, -⟩ | ⟨fault, rfl, -⟩
    · exact absurd rfl hnul
    · exact absurd rfl (hinaccessible fault)

theorem not_holdsNul_of_present (h : t.present p = .ok true) : ¬ p.HoldsNul := by
  intro hnul
  have hcheck : checkPath p = .error .nulInPath := by rw [checkPath, if_pos (p.contains_text.2 hnul)]
  rw [present, resolve, start, hcheck] at h
  cases h

theorem read_eq_error (hnul : ¬ p.HoldsNul) (h : t.read p = .error e) : ∃ fault, e = .inaccessible fault := by
  rw [read] at h
  cases hresolve : t.resolve p with
  | error failure =>
    rw [hresolve] at h
    cases h
    rcases resolve_eq_error hresolve with ⟨-, hholds⟩ | ⟨fault, he, -⟩
    · exact absurd hholds hnul
    · exact ⟨fault, he⟩
  | ok place =>
    rw [hresolve] at h
    simp only [bind, Except.bind] at h
    split at h <;> cases h <;> exact ⟨_, rfl⟩

/-- A failure to do something with a path that has these names. -/
def Refuses (names : List String) (e : Failure) : Prop :=
  (∃ fault, e = .inaccessible fault) ∨ e = .nulInPath ∧ ∃ name ∈ names, Char.ofNat 0 ∈ name.toList

theorem Refuses.mono {names names' : List String} (h : Refuses names e) (hsub : names ⊆ names') : Refuses names' e :=
  h.imp_right fun ⟨he, name, hname, hnul⟩ => ⟨he, name, hsub hname, hnul⟩

theorem refuses_of_resolve (h : t.resolve p = .error e) : Refuses p.names e :=
  (resolve_eq_error h).symm.imp (fun ⟨fault, he, _⟩ => ⟨fault, he⟩) id

theorem refuses_of_start (h : t.start p = .error e) : Refuses p.names e :=
  (start_eq_error h).symm.imp (fun ⟨fault, he, _⟩ => ⟨fault, he⟩) id

theorem refuses_of_presentDirectory (h : t.presentDirectory p = .error e) : Refuses p.names e := by
  rw [presentDirectory] at h
  cases hpresent : t.present p with
  | error failure =>
    rw [hpresent] at h
    cases h
    rcases present_eq_error hpresent with ⟨he, -⟩ | ⟨he, -⟩
    · exact .inl ⟨_, he⟩
    · exact .inl ⟨_, he⟩
  | ok there =>
    rw [hpresent] at h
    cases there with
    | false => cases h
    | true =>
      cases hresolve : t.resolve p with
      | error failure =>
        rw [hresolve] at h
        cases h
        exact refuses_of_resolve hresolve
      | ok place =>
        rw [hresolve] at h
        cases h

theorem refuses_of_target (h : t.target p = .error e) : Refuses p.names e := by
  simp only [target, bind, Except.bind] at h
  split at h
  next hstart =>
    cases h
    exact refuses_of_start hstart
  split at h
  · cases h
  split at h
  next hwalk =>
    cases h
    obtain ⟨fault, he, -⟩ := obstacle_of_walk hwalk
    exact .inl ⟨fault, he⟩
  split at h
  next hsearch =>
    cases h
    obtain ⟨fault, he, -⟩ := checkSearch_eq_error hsearch
    exact .inl ⟨fault, he⟩
  split at h
  · cases h
  split at h
  · cases h
    exact .inl ⟨_, rfl⟩
  · cases h

theorem refuses_of_placeForDirectory (h : t.placeForDirectory p = .error e) : Refuses p.names e := by
  simp only [placeForDirectory, bind, Except.bind] at h
  split at h
  next htarget =>
    cases h
    exact refuses_of_target htarget
  split at h
  · cases h
    exact .inl ⟨_, rfl⟩
  split at h
  · cases h
    exact .inl ⟨_, rfl⟩
  split at h
  · cases h
  · cases h
    exact .inl ⟨_, rfl⟩

theorem refuses_of_placeForFile (h : t.placeForFile p = .error e) : Refuses p.names e := by
  simp only [placeForFile, bind, Except.bind] at h
  split at h
  next htarget =>
    cases h
    exact refuses_of_target htarget
  split at h
  · cases h
    exact .inl ⟨_, rfl⟩
  split at h
  · cases h
    exact .inl ⟨_, rfl⟩
  · split at h
    · cases h
    · cases h
      exact .inl ⟨_, rfl⟩
  · split at h
    · cases h
    · cases h
      exact .inl ⟨_, rfl⟩

/-- The operation fails in no other way. -/
def FailsWith (E : Failure → Prop) (x : OnTree α) : Prop :=
  ∀ t e u, x t = .error e u → E e

namespace FailsWith

variable {E E' : Failure → Prop} {x : OnTree α} {f : α → OnTree β}

theorem pure (a : α) : FailsWith E (pure a : OnTree α) := by
  intro t e u h
  cases h

theorem throw (h : E e) : FailsWith E (throw e : OnTree α) := by
  intro t e u hthrow
  cases hthrow
  exact h

theorem get : FailsWith E (get : OnTree FileTree) := by
  intro t e u h
  cases h

theorem ofExcept {r : Except Failure α} (h : ∀ e, r = .error e → E e) :
    FailsWith E (MonadExcept.ofExcept r : OnTree α) :=
  fun _ e _ hr => h e (ofExcept_eq_error.1 hr).1

theorem imp (hx : FailsWith E x) (h : ∀ e, E e → E' e) : FailsWith E' x :=
  fun t e u he => h e (hx t e u he)

theorem bind (hx : FailsWith E x) (hf : ∀ a, FailsWith E (f a)) : FailsWith E (x >>= f) := by
  intro t e u h
  rcases bind_eq_error.1 h with h | ⟨a, v, -, h⟩
  · exact hx t e u h
  · exact hf a v e u h

theorem tryCatch {handle : Failure → OnTree α} (hx : FailsWith E x) (h : ∀ e, E e → FailsWith E (handle e)) :
    FailsWith E (tryCatch x handle) := by
  intro t e u hcatch
  change EStateM.tryCatch x handle t = _ at hcatch
  rw [EStateM.tryCatch] at hcatch
  cases hr : x t with
  | ok a v =>
    rw [hr] at hcatch
    cases hcatch
  | error failure v =>
    rw [hr] at hcatch
    exact h failure (hx t failure v hr) _ e u hcatch

end FailsWith

theorem failsWith_makeDirectory (p : Path) : FailsWith (Refuses p.names) (makeDirectory p) := by
  intro t e u h
  rw [makeDirectory_apply] at h
  split at h
  next hplace =>
    cases h
    exact refuses_of_placeForDirectory hplace
  · cases h

theorem failsWith_ensureDirectory (p : Path) : FailsWith (Refuses p.names) (ensureDirectory p) := by
  unfold ensureDirectory
  have hthrow : ∀ failure : Failure, Refuses p.names failure → FailsWith (Refuses p.names)
      ((throw failure : OnTree Unit) >>= fun r => ExceptT.run (Pure.pure r) : OnTree (Except Unit Unit)) :=
    fun failure h => .bind (.throw h) fun _ => .pure _
  refine .bind (.tryCatch (.bind (failsWith_makeDirectory p) fun _ => .pure _) fun failure hfailure => ?_) fun e => ?_
  · split
    · split
      · exact hthrow _ hfailure
      · refine .bind .get fun t => .bind (.ofExcept fun _ => refuses_of_presentDirectory) fun there => ?_
        split
        · exact .pure _
        · exact hthrow _ hfailure
    · exact hthrow _ hfailure
  · cases e with
    | error r => exact .pure _
    | ok r => exact .pure _

theorem failsWith_ensureDirectories (anchor : Anchor) (names : List String) :
    FailsWith (Refuses names) (ensureDirectories anchor names) := by
  induction names with
  | nil => exact failsWith_ensureDirectory _
  | cons name above ih =>
    have hensure : FailsWith (Refuses (name :: above)) (ensureDirectory ⟨anchor, (name :: above).reverse⟩) :=
      (failsWith_ensureDirectory _).imp fun e h => h.mono fun x hx => List.mem_reverse.1 hx
    refine .tryCatch hensure fun failure hfailure => ?_
    split
    · exact .bind (ih.imp fun e h => h.mono (List.subset_cons_self _ _)) fun _ => hensure
    · exact .throw hfailure

theorem failsWith_replace (p : Path) (content : ByteArray) : FailsWith (Refuses p.names) (replace p content) := by
  intro t e u h
  rw [replace_apply] at h
  split at h
  next hplace =>
    cases h
    exact refuses_of_placeForFile hplace
  · cases h

/-- **Writing fails for a reason of the system, or because the path holds a NUL.** -/
theorem failsWith_write (p : Path) (content : ByteArray) : FailsWith (Refuses p.names) (write p content) := by
  refine .bind ?_ fun _ => failsWith_replace p content
  refine (failsWith_ensureDirectories p.anchor p.names.dropLast.reverse).imp fun e h => h.mono fun name hname => ?_
  exact List.mem_of_mem_dropLast (List.mem_reverse.1 hname)

end FileTree

end HackToolchain
