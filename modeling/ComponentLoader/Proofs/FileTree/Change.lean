import ComponentLoader.Proofs.FileTree.Spelling
set_option autoImplicit false

/-!
# Changes that create nothing (SPEC §4.2)

`tree.Within other` says that `tree` has no entry that `other` has not, and none of another kind;
what a path leads to in `tree` it also leads to in `other`.  A change that rewrites a file, sets the
time of an entry or removes an entry, and does so at a path that exists, leaves a tree within the
one before it.
-/

namespace ComponentLoader

namespace FileTree

/-! ## Trees within trees -/

/-- Every entry of `tree` is one of `other` too, of the same kind. -/
structure Within (tree other : FileTree) : Prop where
  workingNames : tree.workingNames = other.workingNames
  node : ∀ names node, tree.node? names = some node →
    ∃ node', other.node? names = some node' ∧ node'.isDirectory = node.isDirectory

theorem Within.refl (tree : FileTree) : tree.Within tree :=
  ⟨rfl, fun _ node h => ⟨node, h, rfl⟩⟩

theorem Within.trans {a b c : FileTree} (hab : a.Within b) (hbc : b.Within c) : a.Within c := by
  refine ⟨hab.workingNames.trans hbc.workingNames, ?_⟩
  intro names node hnode
  obtain ⟨node', hnode', hkind'⟩ := hab.node names node hnode
  obtain ⟨node'', hnode'', hkind''⟩ := hbc.node names node' hnode'
  exact ⟨node'', hnode'', hkind''.trans hkind'⟩

section

variable {tree other : FileTree}

theorem Within.route (h : tree.Within other) (path : FilePath) :
    tree.route path = other.route path := by
  unfold FileTree.route
  rw [h.workingNames]

theorem Within.enter (h : tree.Within other) {here names : List Text} {piece : Text}
    (henter : tree.enter here piece = .ok names) : other.enter here piece = .ok names := by
  obtain ⟨⟨node, hnode, hdir⟩, hled⟩ := enter_eq_ok_iff.mp henter
  obtain ⟨node', hnode', hkind⟩ := h.node here node hnode
  refine enter_eq_ok_iff.mpr ⟨⟨node', hnode', hkind.trans hdir⟩, ?_⟩
  rcases hled with hstays | hup | ⟨hmoves, hname, hshort, hentry, rfl⟩
  · exact Or.inl hstays
  · exact Or.inr (Or.inl hup)
  · obtain ⟨entered, hentered⟩ := Option.isSome_iff_exists.mp hentry
    obtain ⟨entered', hentered', -⟩ := h.node _ entered hentered
    have hentry' := Option.isSome_of_eq_some hentered'
    exact Or.inr (Or.inr ⟨hmoves, hname, hshort, hentry', rfl⟩)

theorem Within.foldlM_enter (h : tree.Within other) {pieces : List Text} {start names : List Text}
    (hfold : pieces.foldlM tree.enter start = .ok names) :
    pieces.foldlM other.enter start = .ok names := by
  induction pieces generalizing start with
  | nil => exact hfold
  | cons piece rest ih =>
      obtain ⟨next, hnext, hrest⟩ := foldlM_enter_cons.mp hfold
      exact foldlM_enter_cons.mpr ⟨next, h.enter hnext, ih hrest⟩

theorem Within.resolve (h : tree.Within other) {path : FilePath} {names : List Text}
    (hresolve : tree.resolve path = .ok names) : other.resolve path = .ok names := by
  obtain ⟨hnul, hshort, hne, hfold⟩ := resolve_eq_ok_iff.mp hresolve
  rw [h.route path] at hfold
  exact resolve_eq_ok_iff.mpr ⟨hnul, hshort, hne, h.foldlM_enter hfold⟩

theorem Within.find (h : tree.Within other) {path : FilePath} {node : FileNode}
    (hfind : tree.find path = .ok node) :
    ∃ node', other.find path = .ok node' ∧ node'.isDirectory = node.isDirectory := by
  obtain ⟨names, hresolve, hnode⟩ := find_eq_ok_iff.mp hfind
  obtain ⟨node', hnode', hkind⟩ := h.node names node hnode
  exact ⟨node', find_eq_ok_iff.mpr ⟨names, h.resolve hresolve, hnode'⟩, hkind⟩

/-- A file of the smaller tree is one of the larger tree. -/
theorem Within.isFile (h : tree.Within other) {path : FilePath} (hfile : tree.isFile path = true) :
    other.isFile path = true := by
  obtain ⟨node, hfind, hkind⟩ := (isFile_iff_exists tree path).mp hfile
  obtain ⟨node', hfind', hkind'⟩ := h.find hfind
  exact (isFile_iff_exists other path).mpr ⟨node', hfind', hkind'.trans hkind⟩

end

/-- A tree is within another one if its listed entries are. -/
theorem within_of_entries {tree other : FileTree}
    (hworking : tree.workingNames = other.workingNames) (hentries : ∀ entry ∈ tree.entries,
      (other.node? entry.1).map FileNode.isDirectory = some entry.2.isDirectory) :
    tree.Within other := by
  refine ⟨hworking, ?_⟩
  intro names node hnode
  have hmem : (names, node) ∈ tree.entries := mem_entries_of_node? hnode
  exact Option.map_eq_some_iff.mp (hentries _ hmem)

/-- Trees within each other have the same files. -/
theorem Within.isFile_eq {tree other : FileTree} (h : tree.Within other) (h' : other.Within tree)
    (path : FilePath) : tree.isFile path = other.isFile path := by
  rw [Bool.eq_iff_iff]
  exact ⟨h.isFile, h'.isFile⟩

/-! ## Entries after changes -/

theorem node?_adjust (tree : FileTree) (names : List Text) (change : FileNode → FileNode)
    (wanted : List Text) :
    (tree.adjust names change).node? wanted =
      if wanted = names then (tree.node? wanted).map change else tree.node? wanted := by
  unfold node? adjust
  simp only
  induction tree.entries with
  | nil => simp
  | cons entry rest ih =>
      obtain ⟨key, node⟩ := entry
      by_cases hkey : key = names
      · subst hkey
        by_cases hwanted : wanted = key
        · subst hwanted
          simp
        · have hne : (wanted == key) = false := beq_eq_false_iff_ne.mpr hwanted
          simpa [List.lookup_cons, hne, hwanted] using ih
      · by_cases hwanted : wanted = key
        · subst hwanted
          simp [hkey]
        · have hne : (wanted == key) = false := beq_eq_false_iff_ne.mpr hwanted
          simpa [List.lookup_cons, hne, hkey] using ih

theorem node?_prune (tree : FileTree) (names wanted : List Text) :
    (tree.prune names).node? wanted =
      if names.isPrefixOf wanted then none else tree.node? wanted := by
  unfold node? prune
  simp only
  induction tree.entries with
  | nil => simp
  | cons entry rest ih =>
      obtain ⟨key, node⟩ := entry
      by_cases hkey : names.isPrefixOf key = true
      · rw [List.filter_cons_of_neg (by simp [hkey]), ih]
        by_cases hwanted : wanted = key
        · subst hwanted
          rw [if_pos hkey, if_pos hkey]
        · have hne : (wanted == key) = false := beq_eq_false_iff_ne.mpr hwanted
          simp [List.lookup_cons, hne]
      · rw [List.filter_cons_of_pos (by simp [hkey])]
        by_cases hwanted : wanted = key
        · subst hwanted
          simp [hkey]
        · have hne : (wanted == key) = false := beq_eq_false_iff_ne.mpr hwanted
          simpa [List.lookup_cons, hne] using ih

/-- Adjusting an entry without changing its kind creates nothing. -/
theorem within_adjust {tree : FileTree} {names : List Text} {change : FileNode → FileNode}
    (hkind : ∀ node, tree.node? names = some node → (change node).isDirectory = node.isDirectory) :
    (tree.adjust names change).Within tree := by
  refine ⟨rfl, ?_⟩
  intro wanted node hnode
  rw [node?_adjust] at hnode
  split at hnode
  · rename_i hwanted
    subst hwanted
    obtain ⟨old, hold, rfl⟩ := Option.map_eq_some_iff.mp hnode
    exact ⟨old, hold, (hkind old hold).symm⟩
  · exact ⟨node, hnode, rfl⟩

theorem within_noteChange (tree : FileTree) (names : List Text) :
    (tree.noteChange names).Within tree := by
  have h : (tree.adjust names fun node => { node with modified := tree.clock }).Within tree :=
    within_adjust fun _ _ => rfl
  exact ⟨h.workingNames, h.node⟩

theorem within_prune (tree : FileTree) (names : List Text) : (tree.prune names).Within tree := by
  refine ⟨rfl, ?_⟩
  intro wanted node hnode
  rw [node?_prune] at hnode
  split at hnode
  · cases hnode
  · exact ⟨node, hnode, rfl⟩

/-! ## Spelled names -/

/-- The names that a piece spells, from some names on, are those that it leads to. -/
theorem spelled_of_enter {tree : FileTree} {here names : List Text} {piece : Text}
    (h : tree.enter here piece = .ok names) :
    names = if piece = [] ∨ piece = ['.'] then here
      else if piece = ['.', '.'] then here.dropLast else here ++ [piece] := by
  obtain ⟨-, hled⟩ := enter_eq_ok_iff.mp h
  rw [moves_iff] at hled
  rcases hled with ⟨hstays, rfl⟩ | ⟨hmoves, hup, rfl⟩ | ⟨hmoves, hname, -, -, rfl⟩
  · rw [if_pos (Decidable.not_not.mp hstays)]
  · rw [if_neg hmoves, if_pos hup]
  · rw [if_neg hmoves, if_neg hname]

/-- The names that a path spells are those that it leads to, where it leads anywhere. -/
theorem spelledNames_of_resolve {tree : FileTree} {path : FilePath} {names : List Text}
    (h : tree.resolve path = .ok names) : tree.spelledNames path = names := by
  have hfold := (resolve_eq_ok_iff.mp h).2.2.2
  unfold spelledNames
  generalize tree.route path = route at hfold ⊢
  obtain ⟨start, pieces⟩ := route
  simp only at hfold ⊢
  induction pieces generalizing start with
  | nil => exact Except.ok.inj hfold
  | cons piece rest ih =>
      obtain ⟨next, hnext, hrest⟩ := foldlM_enter_cons.mp hfold
      rw [List.foldl_cons, ← spelled_of_enter hnext]
      exact ih next hrest

end FileTree

/-! ## Updates -/

/-- The changes that rewrite a file, touch an entry or remove an entry, each at a path that exists
in the tree. -/
def FileEdit.Updates (tree : FileTree) : FileEdit → Prop
  | .write path _ _ => tree.isFile path = true
  | .touch path _ => ∃ node, tree.find path = .ok node
  | .remove path => ∃ node, tree.find path = .ok node
  | .rename _ _ => False
  | .makeDirectory _ => False

/-- An update creates nothing. -/
theorem FileTree.within_edit {tree : FileTree} {change : FileEdit} (h : change.Updates tree) :
    (tree.edit change).Within tree := by
  cases change with
  | write path bytes modified =>
      obtain ⟨node, hfind, hfile⟩ := (isFile_iff_exists tree path).mp h
      obtain ⟨names, hresolve, hnode⟩ := find_eq_ok_iff.mp hfind
      have hnames := spelledNames_of_resolve hresolve
      simp only [edit, hnames, hnode]
      apply within_adjust
      intro old hold
      rw [hnode] at hold
      cases hold
      exact hfile.symm
  | touch path modified =>
      unfold edit
      exact within_adjust fun _ _ => rfl
  | remove path =>
      exact (within_noteChange _ _).trans (within_prune _ _)
  | rename source target => exact h.elim
  | makeDirectory path => exact h.elim

end ComponentLoader
