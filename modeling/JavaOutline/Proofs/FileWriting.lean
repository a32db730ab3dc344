import JavaOutline.Cli.FileTree

/-!
# JavaOutline.Proofs.FileWriting

What it takes to write a file, and what writing it changes.

A file is opened, which empties it, and then written to. `Obstructs` lists what may stand in
the way of a file at a path. If something does, the file cannot be opened and the tree is as it
was (`run_write_of_obstructs`). If nothing does, an empty file is put at the place the path leads
to, and writing to it cannot fail any more (`write_of_not_obstructs`). Whatever was at the
place, the path leads to the new file then, and at all other places there is what there was
(`holdsOnly_set`).
-/

namespace JavaOutline.Cli.FileTree

variable {t : FileTree} {place : List String} {path : String} {content : ByteArray}

/-! ## Places -/

theorem lookup_filter_ne {other : List String} (h : other ≠ place)
    (nodes : List (List String × Node)) :
    (nodes.filter (·.1 != place)).lookup other = nodes.lookup other := by
  induction nodes with
  | nil => rfl
  | cons node nodes ih =>
      obtain ⟨key, value⟩ := node
      by_cases hkey : key = place
      · have hne : (other == place) = false := by simpa using h
        simp [hkey, List.lookup_cons, hne, ih]
      · simp [hkey, List.lookup_cons, ih]

theorem node?_set_self (hplace : place ≠ []) (t : FileTree) (node : Node) :
    (t.set place node).node? place = some node := by
  simp [node?, set, hplace]

theorem node?_set_of_ne {other : List String} (h : other ≠ place) (t : FileTree) (node : Node) :
    (t.set place node).node? other = t.node? other := by
  have hne : (other == place) = false := by simpa using h
  simp only [node?, set, List.lookup_cons, hne, lookup_filter_ne h]

/-- Only directories are walked through. -/
theorem step_eq_ok_iff {name : String} {next : List String} :
    t.step place name = .ok next ↔ t.node? place = some .directory
      ∧ next = if name = "." then place else if name = ".." then place.dropLast
        else place ++ [name] := by
  unfold step
  cases t.node? place with
  | none => simp
  | some node => cases node <;> simp [eq_comm]

/-- A file in a place where there is no directory does not change where names lead. -/
theorem step_set {other : List String} {name : String} {next : List String}
    (hnode : t.node? place ≠ some .directory) (h : t.step other name = .ok next) :
    (t.set place (.file content)).step other name = .ok next := by
  rw [step_eq_ok_iff] at h ⊢
  have hne : other ≠ place := by
    rintro rfl
    exact hnode h.1
  rwa [node?_set_of_ne hne]

theorem foldlM_step_set {names here there : List String}
    (hnode : t.node? place ≠ some .directory) (h : names.foldlM t.step here = .ok there) :
    names.foldlM (t.set place (.file content)).step here = .ok there := by
  induction names generalizing here with
  | nil => exact h
  | cons name names ih =>
      rw [List.foldlM_cons] at h ⊢
      cases hstep : t.step here name with
      | error => simp [hstep, bind, Except.bind] at h
      | ok next =>
          rw [hstep] at h
          rw [step_set hnode hstep]
          exact ih h

/-! ## What stands in the way -/

/-- What keeps a file from being written at a path. -/
inductive Obstructs (t : FileTree) (path : String) : Prop
  /-- A directory that the path leads through is missing. -/
  | missing {front : List String} {name : String} {back place : List String}
      (hnames : (Path.ofText path).names = front ++ name :: back)
      (hplace : front.foldlM t.step (t.start (.ofText path)) = .ok place)
      (hnode : t.node? place = none)
  /-- The path leads through a file. -/
  | file {front : List String} {name : String} {back place : List String} {content : ByteArray}
      (hnames : (Path.ofText path).names = front ++ name :: back)
      (hplace : front.foldlM t.step (t.start (.ofText path)) = .ok place)
      (hnode : t.node? place = some (.file content))
  /-- There is a directory at the path. -/
  | directory {place : List String} (hplace : t.place (.ofText path) = .ok place)
      (hnode : t.node? place = some .directory)
  /-- The path ends with a slash, as only those of directories do. -/
  | slash (h : (Path.ofText path).endsInSlash = true)

/-- Names lead to a place unless one of them stands behind something that is no directory. -/
theorem foldlM_step_eq_error {names here : List String} {e : OsError}
    (h : names.foldlM t.step here = .error e) : ∃ front name back there,
      names = front ++ name :: back ∧ front.foldlM t.step here = .ok there
        ∧ t.node? there ≠ some .directory := by
  induction names generalizing here with
  | nil => contradiction
  | cons name names ih =>
      rw [List.foldlM_cons] at h
      cases hstep : t.step here name with
      | error =>
          refine ⟨[], name, names, here, rfl, rfl, fun hnode => ?_⟩
          rw [step_eq_ok_iff.mpr ⟨hnode, rfl⟩] at hstep
          contradiction
      | ok next =>
          rw [hstep] at h
          obtain ⟨front, name', back, there, rfl, hthere, hnode⟩ := ih h
          refine ⟨name :: front, name', back, there, rfl, ?_, hnode⟩
          rw [List.foldlM_cons, hstep]
          exact hthere

/-- Where they lead through something that is no directory, names lead nowhere. -/
theorem exists_foldlM_step_eq_error {front : List String} {name : String}
    {back here there : List String} (hthere : front.foldlM t.step here = .ok there)
    (hnode : t.node? there ≠ some .directory) :
    ∃ e, (front ++ name :: back).foldlM t.step here = .error e := by
  rw [List.foldlM_append, hthere]
  cases hstep : t.step there name with
  | ok next => exact absurd (step_eq_ok_iff.mp hstep).1 hnode
  | error e =>
      refine ⟨e, ?_⟩
      change (name :: back).foldlM t.step there = _
      rw [List.foldlM_cons, hstep]
      rfl

/-- No file is opened where something stands in the way. -/
theorem create_of_obstructs (h : t.Obstructs path) : ∃ e, t.create path = .error e := by
  have hplaceless : ∀ e, t.place (.ofText path) = .error e → t.create path = .error e := by
    intro e he
    simp [create, he, bind, Except.bind]
  have hblocked : ∀ {front name back there}, (Path.ofText path).names = front ++ name :: back →
      front.foldlM t.step (t.start (.ofText path)) = .ok there → t.node? there ≠ some .directory →
      ∃ e, t.create path = .error e := by
    intro front name back there hnames hthere hnode
    obtain ⟨e, he⟩ := exists_foldlM_step_eq_error hthere hnode
    exact ⟨e, hplaceless e (by rw [place, hnames, he])⟩
  cases h with
  | missing hnames hplace hnode => exact hblocked hnames hplace (by simp [hnode])
  | file hnames hplace hnode => exact hblocked hnames hplace (by simp [hnode])
  | directory hplace hnode =>
      refine ⟨.isDirectory, ?_⟩
      simp [create, hplace, hnode, bind, Except.bind]
  | slash hslash =>
      cases hplace : t.place (.ofText path) with
      | error e => exact ⟨e, hplaceless e hplace⟩
      | ok place =>
          refine ⟨.isDirectory, ?_⟩
          simp [create, hplace, hslash, bind, Except.bind]

/-- Where nothing stands in the way an empty file is put at the place the path leads to. -/
theorem create_of_not_obstructs (h : ¬ t.Obstructs path) :
    ∃ place, t.place (.ofText path) = .ok place ∧ t.node? place ≠ some .directory
      ∧ (Path.ofText path).endsInSlash = false
      ∧ t.create path = .ok (place, t.set place (.file .empty)) := by
  have hslash : (Path.ofText path).endsInSlash = false := by
    rw [← Bool.not_eq_true]
    exact fun hslash => h (.slash hslash)
  cases hplace : t.place (.ofText path) with
  | error e =>
      obtain ⟨front, name, back, there, hnames, hthere, hnode⟩ := foldlM_step_eq_error hplace
      cases hnode' : t.node? there with
      | none => exact absurd (.missing hnames hthere hnode') h
      | some node =>
          cases node with
          | file => exact absurd (.file hnames hthere hnode') h
          | directory => exact absurd hnode' hnode
  | ok place =>
      have hnode : t.node? place ≠ some .directory := fun hnode => h (.directory hplace hnode)
      refine ⟨place, rfl, hnode, hslash, ?_⟩
      simp only [create, hplace, hslash, bind, Except.bind]
      split
      · contradiction
      · rfl

theorem set_set (t : FileTree) (place : List String) (a b : Node) :
    (t.set place a).set place b = t.set place b := by
  simp [set, List.filter_filter]

theorem ne_nil_of_node?_ne (hnode : t.node? place ≠ some .directory) : place ≠ [] := by
  rintro rfl
  simp [node?] at hnode

/-- Writing to a file that has just been opened puts the contents into it. -/
theorem writeAll_set_empty (hplace : place ≠ []) (t : FileTree) (content : ByteArray) :
    (t.set place (.file .empty)).writeAll place content = .ok (t.set place (.file content)) := by
  simp only [writeAll, node?_set_self hplace, set_set, ByteArray.empty_append]

/-! ## Writing a file -/

/-- **Nothing is written where something stands in the way**, and nothing changes. -/
theorem run_write_of_obstructs (h : t.Obstructs path) (content : ByteArray) :
    ∃ e, (access.write path content).run t = (.error e, t) := by
  obtain ⟨e, he⟩ := create_of_obstructs h
  have hcreate : (access.create path).run t = (.error e, t) := by
    simp only [access, update, StateT.run, he]
  refine ⟨e, ?_⟩
  rw [FileAccess.write, StateT.run_bind, hcreate]
  rfl

/-- If both steps succeed, they leave the tree with the file behind. -/
theorem run_write_of_write {t' : FileTree} (h : t.write path content = .ok t') :
    (access.write path content).run t = (.ok (), t') := by
  rw [write] at h
  cases hcreate : t.create path with
  | error e => simp [hcreate, bind, Except.bind] at h
  | ok created =>
      obtain ⟨place, opened⟩ := created
      have hwrite : opened.writeAll place content = .ok t' := by rwa [hcreate] at h
      have hopen : (access.create path).run t = (.ok place, opened) := by
        simp only [access, update, StateT.run, hcreate]
      have hfill : (access.writeAll place content).run opened = (.ok (), t') := by
        simp only [access, update, StateT.run, hwrite]
        rfl
      rw [FileAccess.write, StateT.run_bind, hopen]
      exact hfill

/-- **Where nothing stands in the way the file is put at the place the path leads to.** -/
theorem write_of_not_obstructs (h : ¬ t.Obstructs path) (content : ByteArray) :
    ∃ place, t.place (.ofText path) = .ok place ∧ t.node? place ≠ some .directory
      ∧ (Path.ofText path).endsInSlash = false
      ∧ t.write path content = .ok (t.set place (.file content)) := by
  obtain ⟨place, hplace, hnode, hslash, hcreate⟩ := create_of_not_obstructs h
  refine ⟨place, hplace, hnode, hslash, ?_⟩
  rw [write, hcreate]
  exact writeAll_set_empty (ne_nil_of_node?_ne hnode) t content

/-! ## What writing changes -/

/-- The file at a path has the given contents, and everywhere else `t'` is the tree `t`. -/
structure HoldsOnly (t t' : FileTree) (path : String) (content : ByteArray) : Prop where
  read : t'.read path = .ok content
  elsewhere : ∃ place, t.place (.ofText path) = .ok place
    ∧ ∀ other ≠ place, t'.node? other = t.node? other
  workingDirectory : t'.workingDirectory = t.workingDirectory

/-- **A file that is put at the place of a path is all that changes.** -/
theorem holdsOnly_set (hplace : t.place (.ofText path) = .ok place)
    (hnode : t.node? place ≠ some .directory) (hslash : (Path.ofText path).endsInSlash = false)
    (content : ByteArray) : t.HoldsOnly (t.set place (.file content)) path content where
  read := by
    have hroot : place ≠ [] := ne_nil_of_node?_ne hnode
    have hagain : (t.set place (.file content)).place (.ofText path) = .ok place :=
      foldlM_step_set hnode hplace
    simp only [FileTree.read, find, hagain, hslash, node?_set_self hroot, bind, Except.bind]
  elsewhere := ⟨place, hplace, fun other hother => node?_set_of_ne hother t _⟩
  workingDirectory := rfl

end JavaOutline.Cli.FileTree
