import HackToolchain.Host
import Mathlib
/-!
What writing does to a tree of files. Making directories leaves every file as it is, and a file is
written at the one place its path leads to afterwards. Hence no file changes but the one the path
denotes, and what is written to a path is what is read from it, if it may be read at all.
-/

namespace HackToolchain

namespace Path

theorem name_eq_append (p : Path) : p.name = p.stem ++ p.suffix := by
  rw [stem, suffix, ← String.ofList_append, splitName_append, String.ofList_toList]

/-- Only a path with a last name has a suffix. -/
theorem getLast?_names {p : Path} (h : p.suffix ≠ "") : p.names.getLast? = some p.name := by
  cases hlast : p.names.getLast? with
  | none =>
    have hname : p.name = "" := by rw [name, hlast]; rfl
    rw [suffix, hname] at h
    exact absurd rfl h
  | some last => rw [name, hlast]; rfl

end Path

namespace FileTree

variable {t u v : FileTree} {place q : Place} {p : Path} {content : ByteArray} {α β : Type}

theorem node?_put (h : place ≠ []) (t : FileTree) (node : Node) (q : Place) :
    (t.put place node).node? q = if q = place then some node else t.node? q := by
  by_cases hq : q = []
  · simp [node?, hq, Ne.symm h]
  simp only [node?, if_neg hq, put]
  split
  case isTrue hold =>
    -- The place of an entry that is replaced stays the same, so the same entry is found.
    have hplace : (fun entry : Place × Node =>
        (if entry.1 == place then (place, node) else entry).1 == q) = fun entry => entry.1 == q := by
      funext entry
      by_cases he : entry.1 = place <;> simp [he]
    have hfind : (t.nodes.map fun entry => if entry.1 == place then (place, node) else entry).find? (·.1 == q) =
        (t.nodes.find? (·.1 == q)).map fun entry => if entry.1 == place then (place, node) else entry := by
      rw [List.find?_map, Function.comp_def, hplace]
    rw [hfind, Option.map_map]
    cases hfound : t.nodes.find? (·.1 == q) with
    | none =>
      have hnot : q ≠ place := by
        intro he
        obtain ⟨entry, hmem, hentry⟩ := List.any_eq_true.1 hold
        have := List.find?_eq_none.1 hfound entry hmem
        simp_all
      simp [hnot]
    | some entry =>
      have he : entry.1 = q := by simpa using List.find?_some hfound
      by_cases hqp : q = place <;> simp [he, hqp]
  case isFalse hnew =>
    rw [List.find?_append]
    by_cases hqp : q = place
    · have hnone : t.nodes.find? (·.1 == q) = none := by
        rw [List.find?_eq_none]
        intro entry hmem he
        exact hnew (List.any_eq_true.2 ⟨entry, hmem, by simpa [hqp] using he⟩)
      rw [hnone, if_pos hqp]
      simp [hqp]
    · simp [hqp, Ne.symm hqp]

@[simp] theorem here_put (t : FileTree) (place : Place) (node : Node) : (t.put place node).here = t.here := by
  unfold put
  split <;> rfl

@[simp] theorem rights_put (t : FileTree) (place : Place) (node : Node) : (t.put place node).rights = t.rights := by
  unfold put
  split <;> rfl

/-! ### Following paths -/

theorem checkSearch_eq_ok (file : String) :
    t.checkSearch file place = .ok () ↔ t.node? place = some .directory ∧ (t.rights place).search = true := by
  unfold checkSearch
  split
  next h => simp [h]
  next h => simp [h]
  next h => simp [h]

/-- Everything that can come of following a name. -/
theorem step_eq_ok {file name : String} : t.step file place name = .ok q ↔
    (t.node? place = some .directory ∧ (t.rights place).search = true) ∧
      (name = ".." ∧ q = place.tail ∨
        name ≠ ".." ∧ name.utf8ByteSize ≤ nameLimit ∧ (t.node? (name :: place)).isSome ∧ q = name :: place) := by
  rw [← checkSearch_eq_ok file, step]
  cases t.checkSearch file place with
  | error failure => simp [bind, Except.bind]
  | ok _ =>
    simp only [bind, Except.bind, true_and]
    by_cases hup : name = ".."
    · simp [hup, @eq_comm _ q]
    by_cases hlong : nameLimit < name.utf8ByteSize
    · have hshort : ¬ name.utf8ByteSize ≤ nameLimit := Nat.not_le.2 hlong
      rw [if_neg hup, if_pos hlong]
      simp [hup, hshort]
    have hshort : name.utf8ByteSize ≤ nameLimit := Nat.not_lt.1 hlong
    rw [if_neg hup, if_neg hlong]
    by_cases hstands : (t.node? (name :: place)).isSome
    · simp [hup, hshort, hstands, @eq_comm _ q]
    · simp [hup, hstands]

theorem walk_cons (t : FileTree) (file name : String) (rest : List String) (place : Place) :
    t.walk file place (name :: rest) = (t.step file place name).bind (t.walk file · rest) :=
  List.foldlM_cons

theorem walk_append (t : FileTree) (file : String) (names rest : List String) (place : Place) :
    t.walk file place (names ++ rest) = (t.walk file place names).bind (t.walk file · rest) :=
  List.foldlM_append

theorem walk_singleton (t : FileTree) (file name : String) (place : Place) :
    t.walk file place [name] = t.step file place name := by
  rw [walk_cons]
  cases t.step file place name <;> rfl

theorem resolve_eq_ok : t.resolve p = .ok q ↔ ∃ place, t.start p = .ok place ∧ t.walk p.text place p.names = .ok q := by
  rw [resolve]
  cases t.start p <;> simp [bind, Except.bind]

/-- A path whose last name is not `..` leads to a place of that name. -/
theorem head?_resolve {p : Path} {name : String} (hp : p.names.getLast? = some name) (hname : name ≠ "..")
    (h : t.resolve p = .ok q) : q.head? = some name := by
  obtain ⟨above, hnames⟩ := List.getLast?_eq_some_iff.1 hp
  obtain ⟨place, -, hwalk⟩ := resolve_eq_ok.1 h
  rw [hnames, walk_append] at hwalk
  cases hdir : t.walk p.text place above with
  | error failure =>
    rw [hdir] at hwalk
    cases hwalk
  | ok directory =>
    rw [hdir, Except.bind, walk_singleton, step_eq_ok] at hwalk
    obtain ⟨-, ⟨hup, -⟩ | ⟨-, -, -, rfl⟩⟩ := hwalk
    · exact absurd hup hname
    · rfl

/-! ### What stays when a tree grows -/

/-- Everything in `t` stands in `u` too, a directory as a directory, with the same rights. -/
structure Within (t u : FileTree) : Prop where
  here : u.here = t.here
  rights : u.rights = t.rights
  directory : ∀ place, t.node? place = some .directory → u.node? place = some .directory
  standing : ∀ place, (t.node? place).isSome → (u.node? place).isSome

namespace Within

theorem checkSearch (h : Within t u) {file : String} (hs : t.checkSearch file place = .ok ()) :
    u.checkSearch file place = .ok () := by
  rw [checkSearch_eq_ok] at hs ⊢
  rw [h.rights]
  exact ⟨h.directory place hs.1, hs.2⟩

theorem step (h : Within t u) {file name : String} (hs : t.step file place name = .ok q) :
    u.step file place name = .ok q := by
  rw [step_eq_ok] at hs ⊢
  obtain ⟨⟨hdir, hsearch⟩, hnext⟩ := hs
  rw [h.rights]
  refine ⟨⟨h.directory place hdir, hsearch⟩, hnext.imp_right ?_⟩
  rintro ⟨hup, hshort, hstands, rfl⟩
  exact ⟨hup, hshort, h.standing _ hstands, rfl⟩

/-- A path that leads somewhere leads there in a tree that has grown. -/
theorem walk (h : Within t u) {file : String} {names : List String} {place q : Place}
    (hw : t.walk file place names = .ok q) : u.walk file place names = .ok q := by
  induction names generalizing place with
  | nil => exact hw
  | cons name rest ih =>
    rw [walk_cons] at hw ⊢
    cases hstep : t.step file place name with
    | error failure =>
      rw [hstep] at hw
      cases hw
    | ok next =>
      rw [hstep] at hw
      rw [h.step hstep]
      exact ih hw

theorem start (h : Within t u) (hs : t.start p = .ok place) : u.start p = .ok place := by
  simp only [FileTree.start, bind, Except.bind] at hs ⊢
  have horigin : u.origin p = t.origin p := by simp [FileTree.origin, h.here]
  cases hcheck : checkPath p with
  | error failure => simp [hcheck] at hs
  | ok _ =>
    simp only [hcheck] at hs ⊢
    split at hs
    next hdot =>
      rw [if_pos hdot, horigin, h.here]
      cases hsearch : t.checkSearch p.text t.here with
      | error failure => simp [hsearch] at hs
      | ok _ =>
        rw [hsearch] at hs
        rw [h.checkSearch hsearch]
        exact hs
    next hdot =>
      rw [if_neg hdot, horigin]
      exact hs

end Within

/-- A file put where there is no directory. -/
theorem within_put (hne : place ≠ []) (h : t.node? place ≠ some .directory) (content : ByteArray) :
    Within t (t.put place (.file content)) where
  here := here_put t place _
  rights := rights_put t place _
  directory q hq := by
    have hqp : q ≠ place := fun he => h (he ▸ hq)
    rw [node?_put hne, if_neg hqp, hq]
  standing q hq := by
    rw [node?_put hne]
    split
    · rfl
    · exact hq

/-! ### Making directories -/

/-- The files of both trees are the same; `u` may have more directories. -/
structure MoreDirectories (t u : FileTree) : Prop extends Within t u where
  files : ∀ place content, u.node? place = some (.file content) ↔ t.node? place = some (.file content)

namespace MoreDirectories

theorem refl (t : FileTree) : MoreDirectories t t where
  here := rfl
  rights := rfl
  directory _ h := h
  standing _ h := h
  files _ _ := .rfl

theorem trans (h : MoreDirectories t u) (h' : MoreDirectories u v) : MoreDirectories t v where
  here := h'.here.trans h.here
  rights := h'.rights.trans h.rights
  directory place hd := h'.directory place (h.directory place hd)
  standing place hs := h'.standing place (h.standing place hs)
  files place content := (h'.files place content).trans (h.files place content)

theorem put (hne : place ≠ []) (h : t.node? place = none) : MoreDirectories t (t.put place .directory) where
  here := here_put t place _
  rights := rights_put t place _
  directory q hq := by
    rw [node?_put hne]
    split
    · rfl
    · exact hq
  standing q hq := by
    rw [node?_put hne]
    split
    · rfl
    · exact hq
  files q content := by
    rw [node?_put hne]
    split
    case isTrue he => simp [he, h]
    case isFalse => rfl

end MoreDirectories

/-- An operation that makes directories at most, also when it fails. -/
def MakesDirectories (x : OnTree α) : Prop :=
  ∀ t, MoreDirectories t ((attempt x).run t).2

namespace MakesDirectories

theorem pure (a : α) : MakesDirectories (pure a : OnTree α) := fun t => .refl t

theorem throw (failure : Failure) : MakesDirectories (throw failure : OnTree α) := fun t => .refl t

theorem get : MakesDirectories (get : OnTree FileTree) := fun t => .refl t

theorem ofExcept (e : Except Failure α) : MakesDirectories (MonadExcept.ofExcept e : OnTree α) := by
  cases e with
  | error failure => exact throw failure
  | ok a => exact pure a

theorem bind {x : OnTree α} {f : α → OnTree β} (hx : MakesDirectories x) (hf : ∀ a, MakesDirectories (f a)) :
    MakesDirectories (x >>= f) := by
  intro t
  have h := hx t
  show MoreDirectories t ((attempt (EStateM.bind x f)) t).2
  simp only [attempt, StateT.run, EStateM.run, EStateM.bind] at h ⊢
  cases hr : x t with
  | error failure u => simpa [hr] using h
  | ok a u =>
    rw [hr] at h
    exact h.trans (hf a u)

theorem tryCatch {x : OnTree α} {f : Failure → OnTree α} (hx : MakesDirectories x)
    (hf : ∀ failure, MakesDirectories (f failure)) : MakesDirectories (tryCatch x f) := by
  intro t
  have h := hx t
  show MoreDirectories t ((attempt (EStateM.tryCatch x f)) t).2
  simp only [attempt, StateT.run, EStateM.run, EStateM.tryCatch] at h ⊢
  cases hr : x t with
  | ok a u => simpa [hr] using h
  | error failure u =>
    rw [hr] at h
    exact h.trans (hf failure u)

end MakesDirectories

/-- A node is put at a place, unless none can be found for it. -/
theorem putAt_apply (find : FileTree → Except Failure Place) (node : Node) (t : FileTree) :
    (do
      let t ← get
      let place ← MonadExcept.ofExcept (find t)
      set (t.put place node) : OnTree Unit) t =
      match find t with
      | .error failure => .error failure t
      | .ok place => .ok () (t.put place node) := by
  simp only [bind, EStateM.bind, get, getThe, MonadStateOf.get, EStateM.get]
  cases find t <;> rfl

theorem makeDirectory_apply (p : Path) (t : FileTree) :
    makeDirectory p t =
      match t.placeForDirectory p with
      | .error failure => .error failure t
      | .ok place => .ok () (t.put place .directory) :=
  putAt_apply (placeForDirectory · p) .directory t

theorem replace_apply (p : Path) (content : ByteArray) (t : FileTree) :
    replace p content t =
      match t.placeForFile p with
      | .error failure => .error failure t
      | .ok place => .ok () (t.put place (.file content)) :=
  putAt_apply (placeForFile · p) (.file content) t

theorem free_of_placeForDirectory (h : t.placeForDirectory p = .ok place) : place ≠ [] ∧ t.node? place = none := by
  rw [placeForDirectory] at h
  cases htarget : t.target p with
  | error failure =>
    rw [htarget] at h
    cases h
  | ok target =>
    rw [htarget] at h
    simp only [bind, Except.bind] at h
    split at h
    · cases h
    split at h
    · cases h
    next hfree =>
      split at h
      · cases h
        exact ⟨List.cons_ne_nil _ _, by simpa using hfree⟩
      · cases h

theorem makesDirectories_makeDirectory (p : Path) : MakesDirectories (makeDirectory p) := by
  intro t
  simp only [attempt, StateT.run, EStateM.run, makeDirectory_apply]
  cases hplace : t.placeForDirectory p with
  | error failure => exact .refl t
  | ok place =>
    obtain ⟨hne, hfree⟩ := free_of_placeForDirectory hplace
    exact .put hne hfree

theorem makesDirectories_ensureDirectory (p : Path) : MakesDirectories (ensureDirectory p) := by
  unfold ensureDirectory
  have hthrow : ∀ failure : Failure, MakesDirectories
      ((throw failure : OnTree Unit) >>= fun r => ExceptT.run (Pure.pure r) : OnTree (Except Unit Unit)) :=
    fun failure => .bind (.throw failure) fun _ => .pure _
  refine .bind (.tryCatch (.bind (makesDirectories_makeDirectory p) fun _ => .pure _) fun failure => ?_) fun e => ?_
  · split
    · split
      · exact hthrow _
      · refine .bind .get fun t => .bind (.ofExcept _) fun there => ?_
        split
        · exact .pure _
        · exact hthrow _
    · exact hthrow _
  · cases e with
    | error r => exact .pure _
    | ok r => exact .pure _

theorem makesDirectories_ensureDirectories (anchor : Anchor) (names : List String) :
    MakesDirectories (ensureDirectories anchor names) := by
  induction names with
  | nil => exact makesDirectories_ensureDirectory _
  | cons name above ih =>
    refine .tryCatch (makesDirectories_ensureDirectory _) ?_
    intro failure
    split
    · exact .bind ih fun _ => makesDirectories_ensureDirectory _
    · exact .throw _

/-! ### Writing a file -/

/-- The entry that a path denotes, with all that was checked on the way. -/
theorem target_eq_entry {directory : Place} {name : String} (h : t.target p = .ok (.entry directory name)) :
    ∃ place above, t.start p = .ok place ∧ p.names = above ++ [name] ∧ t.walk p.text place above = .ok directory ∧
      t.checkSearch p.text directory = .ok () ∧ name ≠ ".." ∧ name.utf8ByteSize ≤ nameLimit := by
  simp only [target, bind, Except.bind] at h
  split at h
  · cases h
  next place hstart =>
  split at h
  · cases h
  next last hlast =>
  split at h
  · cases h
  next above hwalk =>
  split at h
  · cases h
  next hsearch =>
  split at h
  · cases h
  next hup =>
  split at h
  · cases h
  next hshort =>
    cases h
    exact ⟨place, p.names.dropLast, hstart, (List.dropLast_append_getLast? _ hlast).symm, hwalk, hsearch, hup,
      Nat.not_lt.1 hshort⟩

/-- The entry a path denotes is where it leads once a file stands there. -/
theorem resolve_put_of_target {directory : Place} {name : String} (h : t.target p = .ok (.entry directory name))
    (hfree : t.node? (name :: directory) ≠ some .directory) (content : ByteArray) :
    (t.put (name :: directory) (.file content)).resolve p = .ok (name :: directory) := by
  obtain ⟨place, above, hstart, hnames, hwalk, hsearch, hup, hshort⟩ := target_eq_entry h
  have hwithin := within_put (by simp) hfree content
  refine resolve_eq_ok.2 ⟨place, hwithin.start hstart, ?_⟩
  rw [hnames, walk_append, hwithin.walk hwalk, Except.bind, walk_singleton, step_eq_ok]
  refine ⟨(checkSearch_eq_ok _).1 (hwithin.checkSearch hsearch), .inr ⟨hup, hshort, ?_, rfl⟩⟩
  rw [node?_put (by simp), if_pos rfl]
  rfl

/-- The place of a file is where its path leads once the file stands there. -/
theorem resolve_of_placeForFile (h : t.placeForFile p = .ok place) :
    place ≠ [] ∧ t.node? place ≠ some .directory ∧
      ∀ content, (t.put place (.file content)).resolve p = .ok place := by
  rw [placeForFile] at h
  cases htarget : t.target p with
  | error failure =>
    rw [htarget] at h
    cases h
  | ok target =>
    rw [htarget] at h
    cases target with
    | fixed => cases h
    | entry directory name =>
      have hplace : name :: directory = place ∧ t.node? (name :: directory) ≠ some .directory := by
        simp only [bind, Except.bind] at h
        split at h
        · cases h
        next hfile =>
          split at h
          · exact ⟨Except.ok.inj h, by simp [hfile]⟩
          · cases h
        next hnone =>
          split at h
          · exact ⟨Except.ok.inj h, by simp [hnone]⟩
          · cases h
      obtain ⟨rfl, hfree⟩ := hplace
      exact ⟨List.cons_ne_nil _ _, hfree, fun content => resolve_put_of_target htarget hfree content⟩

/-- Directories are made, and then, unless something failed, a file is put at the place where the
path leads from then on. -/
theorem write_cases (p : Path) (content : ByteArray) (t : FileTree) :
    ∃ u, MoreDirectories t u ∧
      ((∃ failure, write p content t = .error failure u) ∨
        ∃ place, place ≠ [] ∧ write p content t = .ok () (u.put place (.file content)) ∧
          (u.put place (.file content)).resolve p = .ok place) := by
  have hdirectories := makesDirectories_ensureDirectories p.anchor p.names.dropLast.reverse t
  have hwrite : write p content t =
      EStateM.bind (ensureDirectories p.anchor p.names.dropLast.reverse) (fun _ => replace p content) t := rfl
  simp only [attempt, StateT.run, EStateM.run] at hdirectories
  rw [hwrite, EStateM.bind]
  cases hmade : ensureDirectories p.anchor p.names.dropLast.reverse t with
  | error failure u =>
    rw [hmade] at hdirectories
    exact ⟨u, hdirectories, .inl ⟨failure, rfl⟩⟩
  | ok _ u =>
    rw [hmade] at hdirectories
    refine ⟨u, hdirectories, ?_⟩
    dsimp only
    rw [replace_apply]
    cases hplace : u.placeForFile p with
    | error failure => exact .inl ⟨failure, rfl⟩
    | ok place =>
      obtain ⟨hne, -, hresolve⟩ := resolve_of_placeForFile hplace
      exact .inr ⟨place, hne, rfl, hresolve content⟩

/-- A write that succeeds makes one file what it should be and leaves the others as they are. -/
theorem file_of_write (h : write p content t = .ok () u) :
    ∃ place, u.resolve p = .ok place ∧ u.node? place = some (.file content) ∧
      ∀ q, q ≠ place → ∀ old, u.node? q = some (.file old) ↔ t.node? q = some (.file old) := by
  obtain ⟨v, hmore, ⟨failure, hfail⟩ | ⟨place, hne, hput, hresolve⟩⟩ := write_cases p content t
  · rw [hfail] at h
    cases h
  · rw [hput] at h
    cases h
    refine ⟨place, hresolve, by rw [node?_put hne, if_pos rfl], fun q hq old => ?_⟩
    rw [node?_put hne, if_neg hq]
    exact hmore.files q old

theorem rights_of_write (h : write p content t = .ok () u) : u.rights = t.rights := by
  obtain ⟨v, hmore, ⟨failure, hfail⟩ | ⟨place, -, hput, -⟩⟩ := write_cases p content t
  · rw [hfail] at h
    cases h
  · rw [hput] at h
    cases h
    rw [rights_put, hmore.rights]

/-- A write that fails leaves the files as they are. -/
theorem moreDirectories_of_write {failure : Failure} (h : write p content t = .error failure u) :
    MoreDirectories t u := by
  obtain ⟨v, hmore, ⟨failure, hfail⟩ | ⟨place, -, hput, -⟩⟩ := write_cases p content t
  · rw [hfail] at h
    cases h
    exact hmore
  · rw [hput] at h
    cases h

/-! ### Reading a file -/

/-- The path leads to a file with these bytes. -/
def Holds (t : FileTree) (p : Path) (content : ByteArray) : Prop :=
  ∃ place, t.resolve p = .ok place ∧ t.node? place = some (.file content)

/-- What the path leads to may be read. -/
def MayRead (t : FileTree) (p : Path) : Prop :=
  ∀ place, t.resolve p = .ok place → (t.rights place).read = true

theorem read_eq_false_of_not_mayRead (hplace : t.resolve p = .ok place) (h : ¬ t.MayRead p) :
    (t.rights place).read = false := by
  rw [← Bool.not_eq_true]
  refine fun hread => h fun q hq => ?_
  cases hplace.symm.trans hq
  exact hread

theorem holds_of_write (h : write p content t = .ok () u) : u.Holds p content := by
  obtain ⟨place, hplace, hfile, -⟩ := file_of_write h
  exact ⟨place, hplace, hfile⟩

theorem read_of_holds (h : t.Holds p content) (hmay : t.MayRead p) : t.read p = .ok content := by
  obtain ⟨place, hplace, hfile⟩ := h
  simp [read, hplace, bind, Except.bind, hfile, hmay place hplace]

/-- A file that may not be read cannot be read, not even by the process that has just written it. -/
theorem read_of_denied (h : t.Holds p content) (hdenied : ¬ t.MayRead p) :
    t.read p = .error (.inaccessible (.denied p.text)) := by
  obtain ⟨place, hplace, hfile⟩ := h
  simp [read, hplace, bind, Except.bind, hfile, read_eq_false_of_not_mayRead hplace hdenied]

end FileTree

end HackToolchain
