import Mathlib
import Almanac.Files.Disk

/-!
# What actions leave on a disk

A walk that gets somewhere gets where its names say (`Disk.walk_eq`), and gets there on
every disk that has the directories of the first one.  The equations of the actions say
what each of them leaves behind, also when it fails; making directories changes nothing
but places at which there is nothing (`Disk.Grown`).  On a disk that is a tree everything
stands in a directory (`Disk.IsTree`), and every action keeps it one.
-/

namespace Almanac

/-! ## Places -/

/-- The place that names lead to, wherever there are directories. -/
def Place.follow (p : Place) (names : List String) : Place := names.foldl Place.step p

theorem Place.step_of_not_isStep {name : String} (h : Path.isStep name = false) (p : Place) :
    p.step name = p := by
  have hup : name ≠ ".." := by
    rintro rfl
    contradiction
  rw [Place.step, if_neg hup, h]
  rfl

theorem Place.follow_filter (p : Place) (names : List String) :
    p.follow (names.filter Path.isStep) = p.follow names := by
  induction names generalizing p with
  | nil => rfl
  | cons name names ih =>
      rw [List.filter_cons]
      split
      · exact ih (p.step name)
      · rename_i hstep
        rw [ih, Place.follow, Place.follow, List.foldl_cons,
          Place.step_of_not_isStep (Bool.eq_false_iff.mpr hstep)]

theorem Place.step_name {name : String} (h : Path.isStep name = true) (hup : name ≠ "..")
    (p : Place) : p.step name = name :: p := by
  rw [Place.step, if_neg hup, if_pos h]

/-- A way that never goes back leads deeper, or nowhere else. -/
theorem Place.suffix_follow {names : List String} (h : ".." ∉ names) (p : Place) :
    p <:+ p.follow names := by
  induction names generalizing p with
  | nil => exact List.suffix_refl p
  | cons name names ih =>
      obtain ⟨hname, hnames⟩ := List.ne_and_not_mem_of_not_mem_cons h
      refine List.IsSuffix.trans ?_ (ih hnames (p.step name))
      rw [Place.step, if_neg hname.symm]
      split
      · exact List.suffix_cons name p
      · exact List.suffix_refl p

namespace Disk

variable {d d' : Disk} {p q : Place} {names : List String} {path : Path} {n : DiskNode}
  {bytes : ByteArray}

def spot (d : Disk) (path : Path) : Place := (d.start path).follow path.names

theorem node?_put (hp : p ≠ []) (n : DiskNode) (q : Place) :
    (d.put p n).node? q = if q = p then some n else d.node? q := by
  cases q with
  | nil => rw [if_neg hp.symm]; rfl
  | cons name q => exact d.nodes.get?_put p (name :: q) n

theorem node?_put_self (hp : p ≠ []) (n : DiskNode) : (d.put p n).node? p = some n := by
  rw [node?_put hp, if_pos rfl]

theorem node?_erase (hp : p ≠ []) (q : Place) :
    (d.erase p).node? q = if q = p then none else d.node? q := by
  cases q with
  | nil => rw [if_neg hp.symm]; rfl
  | cons name q => exact d.nodes.get?_erase p (name :: q)

theorem ne_root (h : d.node? p ≠ some .directory) : p ≠ [] := by
  rintro rfl
  exact h rfl

theorem mem_filePlaces : p ∈ d.filePlaces ↔ ∃ bytes, d.node? p = some (.file bytes) := by
  rw [filePlaces, List.mem_filterMap]
  constructor
  · rintro ⟨⟨q, n⟩, hmem, hq⟩
    split at hq
    · rename_i name q bytes he
      obtain ⟨rfl, rfl⟩ := Prod.mk.inj he
      obtain rfl := Option.some.inj hq
      exact ⟨bytes, Table.get?_eq_some_iff.mpr hmem⟩
    · contradiction
  · rintro ⟨bytes, hp⟩
    cases p with
    | nil => cases Option.some.inj hp
    | cons name p => exact ⟨_, Table.get?_eq_some_iff.mp hp, rfl⟩

/-! ## Walks -/

theorem walk_cons_iff {name : String} :
    d.walk p (name :: names) = .ok q ↔
      d.node? p = some .directory ∧ isTooLong name = false ∧
        d.walk (p.step name) names = .ok q := by
  rw [walk]
  rcases d.node? p with _ | _ | bytes
  · exact ⟨nofun, nofun⟩
  · cases isTooLong name with
    | true => exact ⟨nofun, nofun⟩
    | false => exact ⟨fun h => ⟨rfl, rfl, h⟩, fun h => h.2.2⟩
  · exact ⟨nofun, nofun⟩

theorem walk_eq (h : d.walk p names = .ok q) : q = p.follow names := by
  induction names generalizing p with
  | nil => exact (Except.ok.inj h).symm
  | cons name names ih => exact ih (walk_cons_iff.mp h).2.2

theorem directory_of_walk (h : d.walk p names = .ok q) (hq : d.node? q = some .directory) :
    d.node? p = some .directory := by
  cases names with
  | nil => rwa [Except.ok.inj h]
  | cons name names => exact (walk_cons_iff.mp h).1

theorem walk_filter (h : d.walk p names = .ok q) :
    d.walk p (names.filter Path.isStep) = .ok q := by
  induction names generalizing p with
  | nil => exact h
  | cons name names ih =>
      obtain ⟨hnode, hshort, hrest⟩ := walk_cons_iff.mp h
      rw [List.filter_cons]
      split
      · exact walk_cons_iff.mpr ⟨hnode, hshort, ih hrest⟩
      · rename_i hstep
        rw [Place.step_of_not_isStep (Bool.eq_false_iff.mpr hstep)] at hrest
        exact ih hrest

theorem walk_concat {name : String} (h : d.walk p (names ++ [name]) = .ok q) :
    ∃ r, d.walk p names = .ok r ∧ d.node? r = some .directory ∧ q = r.step name := by
  induction names generalizing p with
  | nil =>
      obtain ⟨hnode, -, hrest⟩ := walk_cons_iff.mp h
      exact ⟨p, rfl, hnode, (Except.ok.inj hrest).symm⟩
  | cons first names ih =>
      obtain ⟨hnode, hshort, hrest⟩ := walk_cons_iff.mp h
      obtain ⟨r, hr, hdirectory, hq⟩ := ih hrest
      exact ⟨r, walk_cons_iff.mpr ⟨hnode, hshort, hr⟩, hdirectory, hq⟩

/-- Every directory of a disk is a directory of the other one. -/
structure Within (d d' : Disk) : Prop where
  current : d'.current = d.current
  directory : ∀ p, d.node? p = some .directory → d'.node? p = some .directory

theorem Within.refl (d : Disk) : d.Within d := ⟨rfl, fun _ hp => hp⟩

theorem Within.trans {d'' : Disk} (h : d.Within d') (h' : d'.Within d'') : d.Within d'' :=
  ⟨h'.current.trans h.current, fun p hp => h'.directory p (h.directory p hp)⟩

theorem Within.walk (h : d.Within d') (hw : d.walk p names = .ok q) :
    d'.walk p names = .ok q := by
  induction names generalizing p with
  | nil => exact hw
  | cons name names ih =>
      obtain ⟨hnode, hshort, hrest⟩ := walk_cons_iff.mp hw
      exact walk_cons_iff.mpr ⟨h.directory p hnode, hshort, ih hrest⟩

theorem locate_iff : d.locate path = .ok q ↔
    refusal? path = none ∧ path.names ≠ [] ∧ d.walk (d.start path) path.names = .ok q := by
  rw [locate]
  rcases refusal? path with _ | fault
  · rcases path.names with _ | ⟨name, names⟩ <;> simp
  · simp

theorem locate_eq (h : d.locate path = .ok q) : q = d.spot path :=
  walk_eq (locate_iff.mp h).2.2

theorem Within.start (h : d.Within d') (path : Path) : d'.start path = d.start path := by
  rw [Disk.start, Disk.start, h.current]

theorem Within.spot (h : d.Within d') (path : Path) : d'.spot path = d.spot path := by
  rw [Disk.spot, Disk.spot, h.start]

theorem Within.locate (h : d.Within d') (hl : d.locate path = .ok q) :
    d'.locate path = .ok q := by
  obtain ⟨hrefusal, hnames, hwalk⟩ := locate_iff.mp hl
  refine locate_iff.mpr ⟨hrefusal, hnames, ?_⟩
  rw [h.start]
  exact h.walk hwalk

/-- What a path leads to; one that leads nowhere leads to nothing. -/
def held? (d : Disk) (path : Path) : Option DiskNode :=
  match d.locate path with
  | .ok p => d.node? p
  | .error _ => none

theorem held?_of_locate (hl : d.locate path = .ok q) : d.held? path = d.node? q := by
  rw [held?, hl]

theorem Within.held?_eq (h : d.Within d') (hl : d.locate path = .ok q)
    (hspot : d'.node? (d.spot path) = d.node? (d.spot path)) : d'.held? path = d.held? path := by
  rw [held?_of_locate (h.locate hl), held?_of_locate hl, locate_eq hl, hspot]

theorem walk_ne_isDirectory (d : Disk) (p : Place) (names : List String) :
    d.walk p names ≠ .error .isDirectory := by
  induction names generalizing p with
  | nil => exact nofun
  | cons name names ih =>
      rw [Disk.walk]
      split
      · exact nofun
      · exact nofun
      · split
        · exact nofun
        · exact ih (p.step name)

theorem locate_ne_isDirectory (d : Disk) (path : Path) :
    d.locate path ≠ .error .isDirectory := by
  rw [Disk.locate]
  split
  · rename_i fault hrefusal
    rintro ⟨⟩
    rw [refusal?] at hrefusal
    split at hrefusal
    · contradiction
    · split at hrefusal <;> contradiction
  · split
    · exact nofun
    · exact walk_ne_isDirectory d _ _

theorem read_of_locate (hl : d.locate path = .ok q) (hn : d.node? q = some (.file bytes)) :
    d.read path = .ok bytes := by
  simp only [read, hl, bytesAt, hn]

theorem has_files (d : Disk) (text : String) :
    d.files.has text = (d.held? (.ofText text)).isSome := by
  rw [Files.has, files, read, held?]
  rcases hl : d.locate (.ofText text) with fault | p
  · cases fault with
    | isDirectory => exact absurd hl (locate_ne_isDirectory d _)
    | _ => rfl
  · simp only [bytesAt]
    rcases d.node? p with _ | _ | bytes <;> rfl

theorem files_of_held? (d : Disk) (text : String) (n : DiskNode) :
    d.held? (.ofText text) = some n →
      d.files text =
        match n with
        | .directory => .error .isDirectory
        | .file bytes => .ok bytes := by
  intro h
  rw [held?] at h
  split at h
  · rename_i p hl
    rw [files, read, hl]
    simp only [bytesAt, h]
    cases n <;> rfl
  · contradiction

/-- A file can be put where a path leads. -/
structure Takes (d : Disk) (path : Path) : Prop where
  locate : d.locate path = .ok (d.spot path)
  node : d.node? (d.spot path) ≠ some .directory

/-- What has too long a name or path inside of a folder is not the folder. -/
theorem refusal?_of_child {folder : Path} {name : String}
    (h : refusal? (folder.child name) = none) : refusal? folder = none := by
  have hsize : folder.size ≤ (folder.child name).size := by
    simp only [Path.size, Path.child, List.foldl_append, List.foldl_cons, List.foldl_nil]
    omega
  rw [refusal?] at h ⊢
  split at h
  · contradiction
  · rename_i hnul
    split at h
    · contradiction
    · rename_i hshort
      rw [if_neg, if_neg (fun hlong => hshort (hlong.trans hsize))]
      intro hany
      apply hnul
      rw [Path.child, List.any_append, hany, Bool.true_or]

/-! ## New directories -/

/-- Nothing but directories is new, and nothing is gone. -/
structure Grown (d d' : Disk) : Prop where
  current : d'.current = d.current
  node : ∀ p, d'.node? p = d.node? p ∨ d.node? p = none ∧ d'.node? p = some .directory

theorem Grown.refl (d : Disk) : d.Grown d := ⟨rfl, fun _ => .inl rfl⟩

theorem Grown.trans {d'' : Disk} (h : d.Grown d') (h' : d'.Grown d'') : d.Grown d'' := by
  refine ⟨h'.current.trans h.current, fun p => ?_⟩
  rcases h'.node p with he | ⟨hnone, hdir⟩
  · rw [he]
    exact h.node p
  · rcases h.node p with he | ⟨-, hdir'⟩
    · exact .inr ⟨he ▸ hnone, hdir⟩
    · rw [hnone] at hdir'
      contradiction

theorem Grown.within (h : d.Grown d') : d.Within d' := by
  refine ⟨h.current, fun p hp => ?_⟩
  rcases h.node p with he | ⟨hnone, -⟩
  · rw [he, hp]
  · rw [hp] at hnone
    contradiction

theorem grown_put (hp : d.node? p = none) : d.Grown (d.put p .directory) := by
  have hroot : p ≠ [] := ne_root (by rw [hp]; exact nofun)
  refine ⟨rfl, fun q => ?_⟩
  rw [node?_put hroot]
  split
  · rename_i hq
    exact .inr ⟨hq ▸ hp, rfl⟩
  · exact .inl rfl

/-! ## Files that stay -/

/-- The same files stand everywhere, some places left aside. -/
def SameFiles (aside : List Place) (d d' : Disk) : Prop :=
  ∀ p ∉ aside, ∀ bytes, d'.node? p = some (.file bytes) ↔ d.node? p = some (.file bytes)

variable {aside : List Place}

theorem SameFiles.trans {d'' : Disk} (h : SameFiles aside d d') (h' : SameFiles aside d' d'') :
    SameFiles aside d d'' :=
  fun p hp bytes => (h' p hp bytes).trans (h p hp bytes)

theorem Grown.sameFiles (h : d.Grown d') (aside : List Place) : SameFiles aside d d' := by
  intro p _ bytes
  rcases h.node p with he | ⟨hnone, hdir⟩
  · rw [he]
  · rw [hnone, hdir]
    exact ⟨nofun, nofun⟩

/-! ## One place -/

/-- Nothing has changed but what is at one place. -/
structure SameBut (p : Place) (d d' : Disk) : Prop where
  current : d'.current = d.current
  node : ∀ q, q ≠ p → d'.node? q = d.node? q

theorem sameBut_put (hp : p ≠ []) (n : DiskNode) : SameBut p d (d.put p n) :=
  ⟨rfl, fun q hq => by rw [node?_put hp, if_neg hq]⟩

theorem sameBut_erase (hp : p ≠ []) : SameBut p d (d.erase p) :=
  ⟨rfl, fun q hq => by rw [node?_erase hp, if_neg hq]⟩

theorem SameBut.sameFiles (h : SameBut p d d') (hp : p ∈ aside) : SameFiles aside d d' := by
  intro q hq bytes
  rw [h.node q (ne_of_mem_of_not_mem hp hq).symm]

/-- No directory goes if there was none at the place. -/
theorem SameBut.within (h : SameBut p d d') (hp : d.node? p ≠ some .directory) :
    d.Within d' := by
  refine ⟨h.current, fun q hq => ?_⟩
  have hne : q ≠ p := by
    rintro rfl
    exact hp hq
  rw [h.node q hne, hq]

theorem within_put (h : d.node? p ≠ some .directory) (n : DiskNode) : d.Within (d.put p n) :=
  (sameBut_put (ne_root h) n).within h

/-! ## Trees -/

/-- Everything stands in a directory, and the current directory is one. -/
structure IsTree (d : Disk) : Prop where
  current : d.node? d.current = some .directory
  parent : ∀ {name : String} {p : Place}, d.node? (name :: p) ≠ none → d.node? p = some .directory

theorem isTree_empty : ({} : Disk).IsTree where
  current := rfl
  parent h := absurd rfl h

theorem IsTree.above (h : d.IsTree) {names : List String} (hnames : names ≠ [])
    (hnode : d.node? (names ++ p) ≠ none) : d.node? p = some .directory := by
  induction names with
  | nil => contradiction
  | cons name names ih =>
      have hparent : d.node? (names ++ p) = some .directory := h.parent hnode
      rcases eq_or_ne names [] with rfl | hmore
      · exact hparent
      · exact ih hmore (by rw [hparent]; exact nofun)

/-- Only what does not stay where it is and does not go back can lead out of all directories. -/
theorem IsTree.step_eq (h : d.IsTree) (hp : d.node? p = some .directory) {name : String}
    (hstep : d.node? (p.step name) ≠ some .directory) : p.step name = name :: p := by
  rw [Place.step] at hstep ⊢
  split
  · rename_i hup
    rw [if_pos hup] at hstep
    cases p with
    | nil => exact absurd rfl hstep
    | cons first p =>
        have hparent : d.node? p = some .directory := h.parent (by rw [hp]; exact nofun)
        exact absurd hparent hstep
  · rename_i hup
    rw [if_neg hup] at hstep
    split
    · rfl
    · rename_i hstay
      rw [if_neg hstay] at hstep
      exact absurd hp hstep

/-- What is put into a directory, in place of anything but a directory, keeps the tree. -/
theorem IsTree.put (h : d.IsTree) {name : String} (hp : d.node? p = some .directory)
    (hnode : d.node? (name :: p) ≠ some .directory) (n : DiskNode) :
    (d.put (name :: p) n).IsTree := by
  have hkeep : ∀ q, d.node? q = some .directory → (d.put (name :: p) n).node? q = some .directory :=
    (within_put hnode n).directory
  refine ⟨hkeep _ h.current, fun {other q} hq => ?_⟩
  rw [node?_put (ne_root hnode)] at hq
  split at hq
  · rename_i he
    rw [(List.cons.inj he).2]
    exact hkeep p hp
  · exact hkeep q (h.parent hq)

theorem IsTree.erase (h : d.IsTree) (hp : d.node? p ≠ some .directory) : (d.erase p).IsTree := by
  have hkeep := ((sameBut_erase (ne_root hp)).within hp).directory
  refine ⟨hkeep _ h.current, fun {name q} hq => ?_⟩
  rw [node?_erase (ne_root hp)] at hq
  split at hq
  · contradiction
  · exact hkeep q (h.parent hq)

theorem IsTree.start (h : d.IsTree) (path : Path) :
    d.node? (d.start path) = some .directory := by
  rw [Disk.start]
  split
  · rfl
  · exact h.current

/-- In a tree, what stands at the end of a way that never goes back is reached on it, as far
as the names can be walked at all. -/
theorem IsTree.walk (h : d.IsTree) (hforth : ".." ∉ names) (hw : d'.walk p names = .ok q)
    (hsame : d'.node? q = d.node? q) (hq : d.node? q ≠ none) : d.walk p names = .ok q := by
  induction names generalizing p with
  | nil => exact hw
  | cons name names ih =>
      obtain ⟨hnode, hshort, hrest⟩ := walk_cons_iff.mp hw
      refine walk_cons_iff.mpr ⟨?_, hshort, ih (List.not_mem_of_not_mem_cons hforth) hrest⟩
      obtain ⟨between, hbetween⟩ := Place.suffix_follow hforth p
      rw [← walk_eq hw] at hbetween
      rcases eq_or_ne between [] with rfl | hdeeper
      · obtain rfl : p = q := hbetween
        rw [← hsame, hnode]
      · exact h.above hdeeper (by rwa [hbetween])

/-- In a tree, a path that never goes back leads to what is at its spot, or to nothing: more
directories only let it lead to nothing in another way. -/
theorem IsTree.held?_eq (h : d.IsTree) (hwithin : d.Within d') (hforth : ".." ∉ path.names)
    (hspot : d'.node? (d.spot path) = d.node? (d.spot path)) : d'.held? path = d.held? path := by
  rcases hl : d.locate path with fault | p
  swap
  · exact hwithin.held?_eq hl hspot
  have hnothing : d.held? path = none := by rw [held?, hl]
  rw [hnothing]
  rcases hl' : d'.locate path with fault' | q
  · rw [held?, hl']
  rw [held?_of_locate hl']
  obtain rfl := locate_eq hl'
  rw [hwithin.spot] at hl' ⊢
  rw [hspot]
  by_contra hsome
  obtain ⟨hrefusal, hnames, hwalk⟩ := locate_iff.mp hl'
  rw [hwithin.start] at hwalk
  have hlocate := locate_iff.mpr ⟨hrefusal, hnames, h.walk hforth hwalk hspot hsome⟩
  rw [hl] at hlocate
  contradiction

theorem IsTree.put_spot (h : d.IsTree) (ht : d.Takes path) (n : DiskNode) :
    (d.put (d.spot path) n).IsTree := by
  obtain ⟨-, hnames, hwalk⟩ := locate_iff.mp ht.locate
  rw [← List.dropLast_append_getLast hnames] at hwalk
  obtain ⟨r, -, hr, hspot⟩ := walk_concat hwalk
  have hnode := ht.node
  rw [hspot] at hnode ⊢
  have hcons := h.step_eq hr hnode
  rw [hcons] at hnode ⊢
  exact h.put hr hnode n

/-! ## Actions -/

namespace Action

/-- The disk after an action, whatever came of it. -/
def left {α : Type} : EStateM.Result FileFault Disk α → Disk
  | .ok _ d => d
  | .error _ d => d

theorem createAlong_cons (p : Place) (made : Bool) (name : String) (rest : List String)
    (d : Disk) :
    createAlong p made (name :: rest) d =
      match d.node? (p.step name) with
      | some .directory => createAlong (p.step name) made rest d
      | some (.file _) => .error (if made || rest.isEmpty then .taken else .notDirectory) d
      | none =>
        if isTooLong name then .error .nameTooLong d
        else createAlong (p.step name) true rest (d.put (p.step name) .directory) := by
  rw [createAlong]
  simp only [bind, EStateM.bind, get, getThe, MonadStateOf.get, EStateM.get]
  rcases d.node? (p.step name) with _ | _ | bytes
  · simp only
    split <;> rfl
  · rfl
  · rfl

theorem grown_createAlong (p : Place) (made : Bool) (names : List String) (d : Disk) :
    d.Grown (left (createAlong p made names d)) := by
  induction names generalizing p made d with
  | nil => exact .refl d
  | cons name names ih =>
      rw [createAlong_cons]
      split
      · exact ih _ _ d
      · exact .refl d
      · rename_i hnone
        split
        · exact .refl d
        · exact (grown_put hnone).trans (ih _ _ _)

/-- Nothing is made along a walk that can be gone already. -/
theorem createAlong_of_walk (h : d.walk p names = .ok q) (hq : d.node? q = some .directory)
    (made : Bool) : createAlong p made names d = .ok () d := by
  induction names generalizing p with
  | nil => rfl
  | cons name names ih =>
      have hrest := (walk_cons_iff.mp h).2.2
      rw [createAlong_cons, directory_of_walk hrest hq]
      exact ih hrest

/-- Directories are made on the way, and a way that never goes back ends at the longest
of its places. -/
theorem node?_createAlong (hforth : ".." ∉ names) (hq : (p.follow names).length < q.length)
    (made : Bool) : (left (createAlong p made names d)).node? q = d.node? q := by
  induction names generalizing p made d with
  | nil => rfl
  | cons name names ih =>
      have hnames := List.not_mem_of_not_mem_cons hforth
      rw [createAlong_cons]
      split
      · exact ih hnames hq made
      · rfl
      · rename_i hnone
        split
        · rfl
        · have hle := (Place.suffix_follow hnames (p.step name)).length_le
          have hne : q ≠ p.step name := by
            rintro rfl
            exact absurd hq (not_lt.mpr hle)
          have hroot : p.step name ≠ [] := ne_root (by rw [hnone]; exact nofun)
          rw [ih hnames hq, node?_put hroot, if_neg hne]

theorem isTree_createAlong (h : d.IsTree) (hp : d.node? p = some .directory) (made : Bool)
    (names : List String) : (left (createAlong p made names d)).IsTree := by
  induction names generalizing p made d with
  | nil => exact h
  | cons name names ih =>
      rw [createAlong_cons]
      split
      · rename_i hnext
        exact ih h hnext made
      · exact h
      · rename_i hnone
        split
        · exact h
        · have hnode : d.node? (p.step name) ≠ some .directory := by
            rw [hnone]
            exact nofun
          have hput := node?_put_self (d := d) (ne_root hnode) .directory
          have hcons := h.step_eq hp hnode
          rw [hcons] at hnode hput ⊢
          exact ih (h.put hp hnode _) hput true

theorem createDirectories_eq (path : Path) (d : Disk) :
    createDirectories path d =
      match refusal? path with
      | some fault => .error fault d
      | none => createAlong (d.start path) false path.names d := by
  unfold createDirectories
  rcases refusal? path with _ | fault <;> rfl

/-- What making the directories of a path leaves behind, also when it fails. -/
def madeFor (path : Path) (d : Disk) : Disk := left (createDirectories path d)

/-- **Making directories makes nothing but directories.** -/
theorem grown_madeFor (path : Path) (d : Disk) : d.Grown (madeFor path d) := by
  rw [madeFor, createDirectories_eq]
  split
  · exact .refl d
  · exact grown_createAlong _ _ _ d

theorem isTree_madeFor (h : d.IsTree) (path : Path) : (madeFor path d).IsTree := by
  rw [madeFor, createDirectories_eq]
  split
  · exact h
  · exact isTree_createAlong h (h.start path) false _

theorem node?_madeFor (hforth : ".." ∉ path.names) (hq : (d.spot path).length < q.length) :
    (madeFor path d).node? q = d.node? q := by
  rw [madeFor, createDirectories_eq]
  split
  · rfl
  · exact node?_createAlong hforth hq false

theorem madeFor_of_walk (h : d.walk (d.start path) path.names = .ok q)
    (hq : d.node? q = some .directory) : madeFor path d = d := by
  rw [madeFor, createDirectories_eq]
  split
  · rfl
  · rw [createAlong_of_walk h hq false]
    rfl

/-- Nothing is made where something in the folder has a place already. -/
theorem createDirectories_of_child {name : String} (hl : d.locate (path.child name) = .ok q) :
    createDirectories path d = .ok () d := by
  obtain ⟨hrefusal, -, hwalk⟩ := locate_iff.mp hl
  obtain ⟨r, hr, hdirectory, -⟩ := walk_concat hwalk
  rw [createDirectories_eq, refusal?_of_child hrefusal]
  exact createAlong_of_walk hr hdirectory false

theorem writeAt_cases (p : Place) (bytes : ByteArray) (d : Disk) :
    (d.node? p = some .directory ∧ writeAt p bytes d = .error .isDirectory d) ∨
      d.node? p ≠ some .directory ∧ writeAt p bytes d = .ok () (d.put p (.file bytes)) := by
  rw [writeAt]
  simp only [bind, EStateM.bind, get, getThe, MonadStateOf.get, EStateM.get]
  rcases d.node? p with _ | _ | b
  · exact .inr ⟨nofun, rfl⟩
  · exact .inl ⟨rfl, rfl⟩
  · exact .inr ⟨nofun, rfl⟩

/-- A file is written as a whole, or nothing is. -/
theorem write_cases (path : Path) (bytes : ByteArray) (d : Disk) :
    (¬d.Takes path ∧ ∃ fault, write path bytes d = .error fault d) ∨
      d.Takes path ∧ write path bytes d = .ok () (d.put (d.spot path) (.file bytes)) := by
  rw [write]
  simp only [bind, EStateM.bind, get, getThe, MonadStateOf.get, EStateM.get]
  rcases hl : d.locate path with fault | p
  · exact .inl ⟨fun ht => (nomatch hl.symm.trans ht.locate), fault, rfl⟩
  · obtain rfl := locate_eq hl
    rcases writeAt_cases (d.spot path) bytes d with ⟨hp, hw⟩ | ⟨hp, hw⟩
    · exact .inl ⟨fun ht => ht.node hp, _, hw⟩
    · exact .inr ⟨⟨hl, hp⟩, hw⟩

theorem isTree_write (h : d.IsTree) (path : Path) (bytes : ByteArray) :
    (left (write path bytes d)).IsTree := by
  obtain ⟨-, fault, hw⟩ | ⟨ht, hw⟩ := write_cases path bytes d
  · rwa [hw]
  · rw [hw]
    exact h.put_spot ht _

theorem rename_eq (source target : Path) (d : Disk) :
    rename source target d =
      match d.locate source with
      | .error fault => .error fault d
      | .ok p =>
        match d.locate target with
        | .error fault => .error fault d
        | .ok q =>
          match d.bytesAt p with
          | .error fault => .error fault d
          | .ok bytes =>
            match writeAt q bytes d with
            | .error fault d => .error fault d
            | .ok _ d => .ok () (if p ≠ q then d.erase p else d) := by
  rw [rename]
  simp only [bind, EStateM.bind, get, getThe, MonadStateOf.get, EStateM.get]
  rcases d.locate source with fault | p
  · rfl
  simp only [ofExcept, pure, EStateM.pure]
  rcases d.locate target with fault | q
  · rfl
  simp only [EStateM.pure]
  rcases d.bytesAt p with fault | bytes
  · rfl
  simp only [EStateM.pure]
  rcases writeAt q bytes d with ⟨_, d⟩ | ⟨fault, d⟩
  · by_cases hne : p ≠ q
    · simp only [if_pos hne]
      rfl
    · simp only [if_neg hne]
      rfl
  · rfl

/-- A file that is there is moved to another place, or nothing is. -/
theorem rename_cases {source : Path} (target : Path) (hp : d.locate source = .ok p)
    (hn : d.node? p = some (.file bytes)) (hne : p ≠ d.spot target) :
    (¬d.Takes target ∧ ∃ fault, rename source target d = .error fault d) ∨
      d.Takes target ∧ rename source target d =
        .ok () ((d.put (d.spot target) (.file bytes)).erase p) := by
  have hb : d.bytesAt p = .ok bytes := by rw [bytesAt, hn]
  simp only [rename_eq, hp, hb]
  rcases hl : d.locate target with fault | q
  · exact .inl ⟨fun ht => (nomatch hl.symm.trans ht.locate), fault, rfl⟩
  · obtain rfl := locate_eq hl
    simp only
    rcases writeAt_cases (d.spot target) bytes d with ⟨hq, hw⟩ | ⟨hq, hw⟩
    · rw [hw]
      exact .inl ⟨fun ht => ht.node hq, _, rfl⟩
    · rw [hw]
      simp only
      rw [if_pos hne]
      exact .inr ⟨⟨hl, hq⟩, rfl⟩

theorem isTree_rename (h : d.IsTree) (source target : Path) :
    (left (rename source target d)).IsTree := by
  rw [rename_eq]
  rcases d.locate source with fault | p
  · exact h
  rcases hl : d.locate target with fault | q
  · exact h
  obtain rfl := locate_eq hl
  simp only
  rcases hb : d.bytesAt p with fault | bytes
  · exact h
  simp only
  obtain ⟨-, hw⟩ | ⟨hq, hw⟩ := writeAt_cases (d.spot target) bytes d
  · rwa [hw]
  rw [hw]
  have hput := h.put_spot ⟨hl, hq⟩ (.file bytes)
  simp only [left]
  split
  · rename_i hne
    refine hput.erase ?_
    rw [node?_put (ne_root hq), if_neg hne]
    intro hdirectory
    rw [bytesAt, hdirectory] at hb
    contradiction
  · exact hput

end Action

end Disk

end Almanac
