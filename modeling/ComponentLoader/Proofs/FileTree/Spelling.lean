import ComponentLoader.FileTree.Basic
set_option autoImplicit false

/-!
# Spellings of one path in a file tree (SPEC §4.1)

Spellings of one path differ only in pieces that lead nowhere, empty ones and `.`, so those of them
that lead to an entry lead to the same one.  They need not all lead there: such a piece at the end
asks for a directory.  A path that leads to a file in some tree has no such piece at its end;
therefore it leads to an entry in every tree in which another spelling of it does.
-/

namespace ComponentLoader.FileTree

/-! ## Pieces -/

/-- Whether a piece of a path leads from one entry to another. -/
def Moves (piece : Text) : Prop :=
  (FilePath.bodySegment? piece).isSome = true

instance (piece : Text) : Decidable (Moves piece) :=
  inferInstanceAs (Decidable (_ = true))

theorem moves_iff {piece : Text} : Moves piece ↔ ¬ (piece = [] ∨ piece = ['.']) := by
  unfold Moves FilePath.bodySegment?
  by_cases hstay : piece = [] ∨ piece = ['.']
  · simp [hstay]
  · by_cases hup : piece = ['.', '.'] <;> simp [hstay, hup]

/-- The pieces that move are the segments of a body as they are spelled. -/
theorem filter_moves (pieces : List Text) :
    pieces.filter Moves =
      (pieces.filterMap FilePath.bodySegment?).map FilePath.Segment.text := by
  induction pieces with
  | nil => rfl
  | cons piece rest ih =>
      by_cases hstay : piece = [] ∨ piece = ['.']
      · have hmoves : ¬ Moves piece := fun h => moves_iff.mp h hstay
        simp [hmoves, FilePath.bodySegment?, hstay, ih]
      · have hmoves : Moves piece := moves_iff.mpr hstay
        by_cases hup : piece = ['.', '.']
        · subst hup
          simp [hmoves, FilePath.bodySegment?, FilePath.Segment.text, ih]
        · simp [hmoves, FilePath.bodySegment?, FilePath.Segment.text, hstay, hup, ih]

/-- Whether a segment stands in the body of a path and not in its front. -/
def isStep : FilePath.Segment → Bool
  | .root | .here => false
  | .up | .name _ => true

theorem filter_isStep_bodySegments (pieces : List Text) :
    (pieces.filterMap FilePath.bodySegment?).filter isStep =
      pieces.filterMap FilePath.bodySegment? := by
  rw [List.filter_eq_self]
  intro segment hmem
  obtain ⟨piece, -, hpiece⟩ := List.mem_filterMap.mp hmem
  unfold FilePath.bodySegment? at hpiece
  split at hpiece
  · cases hpiece
  · split at hpiece <;> cases hpiece <;> rfl

/-! ## Routes -/

theorem route_absolute (tree : FileTree) (body : Text) :
    tree.route ⟨'/' :: body⟩ = ([], Text.splitOn '/' body) := rfl

theorem route_relative (tree : FileTree) {text : Text} (h : ∀ body, text ≠ '/' :: body) :
    tree.route ⟨text⟩ = (tree.workingNames, Text.splitOn '/' text) := by
  unfold route
  split
  · rename_i body hbody
    exact absurd hbody (h body)
  · rfl

/-- The pieces of a path do not depend on the tree. -/
theorem pieces_route (tree other : FileTree) (path : FilePath) :
    (tree.route path).2 = (other.route path).2 := by
  unfold route
  split <;> rfl

/-- The pieces of a path that move are its segments after the front. -/
theorem filter_moves_route (tree : FileTree) (path : FilePath) :
    (tree.route path).2.filter Moves =
      (path.segments.filter isStep).map FilePath.Segment.text := by
  obtain ⟨text⟩ := path
  rw [filter_moves]
  congr 1
  unfold FilePath.segments
  fun_cases FilePath.front text with
  | case1 body =>
      simp [route_absolute, isStep, filter_isStep_bodySegments]
  | case2 =>
      rw [route_relative tree (by simp)]
      simp [Text.splitOn, FilePath.bodySegment?, isStep]
  | case3 body =>
      rw [route_relative tree (by simp)]
      simp [Text.splitOn, FilePath.bodySegment?, isStep, filter_isStep_bodySegments]
  | case4 _ hroot _ _ =>
      rw [route_relative tree (fun body hbody => hroot body hbody)]
      simp [filter_isStep_bodySegments]

theorem head?_bodySegments_ne_root (pieces : List Text) :
    (pieces.filterMap FilePath.bodySegment?).head? ≠ some .root := by
  intro h
  have hmem := List.mem_of_head? h
  rw [← filter_isStep_bodySegments] at hmem
  exact absurd (List.mem_filter.mp hmem).2 (by simp [isStep])

/-- A path starts at the root directory exactly if its first segment says so. -/
theorem start_route (tree : FileTree) (path : FilePath) :
    (tree.route path).1 = if path.segments.head? = some .root then [] else tree.workingNames := by
  obtain ⟨text⟩ := path
  unfold FilePath.segments
  fun_cases FilePath.front text with
  | case1 body => simp [route_absolute]
  | case2 =>
      rw [route_relative tree (by simp)]
      simp
  | case3 body =>
      rw [route_relative tree (by simp)]
      simp
  | case4 _ hroot _ _ =>
      rw [route_relative tree (fun body hbody => hroot body hbody)]
      exact (if_neg (head?_bodySegments_ne_root (Text.splitOn '/' text))).symm

/-- Spellings of one path start at the same place. -/
theorem start_route_of_same (tree : FileTree) {p q : FilePath} (h : p.Same q) :
    (tree.route p).1 = (tree.route q).1 := by
  rw [start_route, start_route, show p.segments = q.segments from h]

/-- Spellings of one path have the same moving pieces. -/
theorem filter_moves_route_of_same (tree : FileTree) {p q : FilePath} (h : p.Same q) :
    (tree.route p).2.filter Moves = (tree.route q).2.filter Moves := by
  rw [filter_moves_route, filter_moves_route, show p.segments = q.segments from h]

/-! ## Following pieces -/

/-- Where one piece leads from a directory: nowhere, up, or to an entry in it. -/
theorem enter_eq_ok_iff {tree : FileTree} {here names : List Text} {piece : Text} :
    tree.enter here piece = .ok names ↔
      (∃ node, tree.node? here = some node ∧ node.isDirectory = true) ∧
        (¬ Moves piece ∧ here = names ∨
          Moves piece ∧ piece = ['.', '.'] ∧ here.dropLast = names ∨
          Moves piece ∧ piece ≠ ['.', '.'] ∧ Text.byteSize piece ≤ nameLimit ∧
            (tree.node? (here ++ [piece])).isSome = true ∧ here ++ [piece] = names) := by
  rw [moves_iff]
  unfold enter
  cases hnode : tree.node? here with
  | none => simp
  | some node =>
      by_cases hdir : node.isDirectory = true
      · by_cases hstay : piece = [] ∨ piece = ['.']
        · simp [hdir, hstay]
        · by_cases hup : piece = ['.', '.']
          · simp [hdir, hup]
          · by_cases hlong : nameLimit < Text.byteSize piece
            · simp [hdir, hstay, hup, hlong, Nat.not_le.mpr hlong]
            · by_cases hentry : (tree.node? (here ++ [piece])).isSome = true
              · simp [hdir, hstay, hup, hlong, Nat.not_lt.mp hlong, hentry]
              · simp [hdir, hstay, hup, hlong, hentry]
      · simp [hdir]

/-- A piece that does not move stays at a directory. -/
theorem enter_of_not_moves {tree : FileTree} {here : List Text} {piece : Text} {node : FileNode}
    (hpiece : ¬ Moves piece) (hnode : tree.node? here = some node)
    (hdir : node.isDirectory = true) : tree.enter here piece = .ok here :=
  enter_eq_ok_iff.mpr ⟨⟨node, hnode, hdir⟩, Or.inl ⟨hpiece, rfl⟩⟩

theorem eq_of_enter_of_not_moves {tree : FileTree} {here names : List Text} {piece : Text}
    (hpiece : ¬ Moves piece) (h : tree.enter here piece = .ok names) : names = here := by
  obtain ⟨-, hled⟩ := enter_eq_ok_iff.mp h
  rcases hled with ⟨-, hnames⟩ | ⟨hmoves, -⟩ | ⟨hmoves, -⟩
  · exact hnames.symm
  · exact absurd hmoves hpiece
  · exact absurd hmoves hpiece

theorem foldlM_enter_cons {tree : FileTree} {here names : List Text} {piece : Text}
    {pieces : List Text} :
    (piece :: pieces).foldlM tree.enter here = .ok names ↔
      ∃ next, tree.enter here piece = .ok next ∧ pieces.foldlM tree.enter next = .ok names := by
  rw [List.foldlM_cons]
  cases tree.enter here piece with
  | error fault => simp [bind, Except.bind]
  | ok next => simp [bind, Except.bind]

/-- What is reached over all pieces is reached over those that move. -/
theorem foldlM_enter_filter {tree : FileTree} {pieces : List Text} {start names : List Text}
    (h : pieces.foldlM tree.enter start = .ok names) :
    (pieces.filter Moves).foldlM tree.enter start = .ok names := by
  induction pieces generalizing start with
  | nil => exact h
  | cons piece rest ih =>
      obtain ⟨next, hnext, hrest⟩ := foldlM_enter_cons.mp h
      by_cases hpiece : Moves piece
      · rw [List.filter_cons_of_pos (by simpa using hpiece)]
        exact foldlM_enter_cons.mpr ⟨next, hnext, ih hrest⟩
      · rw [List.filter_cons_of_neg (by simpa using hpiece)]
        have hstay : next = start := eq_of_enter_of_not_moves hpiece hnext
        subst hstay
        exact ih hrest

/-- What is reached over the pieces that move is reached over all pieces if the last one moves: each
piece that does not is followed by one that asks for the same directory. -/
theorem foldlM_enter_of_filter {tree : FileTree} {pieces : List Text} {start names : List Text}
    (hlast : ∀ last, pieces.getLast? = some last → Moves last)
    (h : (pieces.filter Moves).foldlM tree.enter start = .ok names) :
    pieces.foldlM tree.enter start = .ok names := by
  induction pieces generalizing start with
  | nil => exact h
  | cons piece rest ih =>
      have hlastRest : ∀ last, rest.getLast? = some last → Moves last := by
        intro last hrest
        apply hlast
        rw [List.getLast?_cons, hrest]
        rfl
      by_cases hpiece : Moves piece
      · rw [List.filter_cons_of_pos (by simpa using hpiece)] at h
        obtain ⟨next, hnext, hrest⟩ := foldlM_enter_cons.mp h
        exact foldlM_enter_cons.mpr ⟨next, hnext, ih hlastRest hrest⟩
      · rw [List.filter_cons_of_neg (by simpa using hpiece)] at h
        refine foldlM_enter_cons.mpr ⟨start, ?_, ih hlastRest h⟩
        cases hfilter : rest.filter Moves with
        | nil =>
            exfalso
            cases hend : rest.getLast? with
            | none =>
                have hnil : rest = [] := List.getLast?_eq_none_iff.mp hend
                subst hnil
                exact hpiece (hlast piece rfl)
            | some last =>
                have hmem : last ∈ rest.filter Moves :=
                  List.mem_filter.mpr ⟨List.mem_of_getLast? hend, by
                    simpa using hlastRest last hend⟩
                rw [hfilter] at hmem
                cases hmem
        | cons first others =>
            rw [hfilter] at h
            obtain ⟨next, hnext, -⟩ := foldlM_enter_cons.mp h
            obtain ⟨⟨node, hnode, hdir⟩, -⟩ := enter_eq_ok_iff.mp hnext
            exact enter_of_not_moves hpiece hnode hdir

/-! ## Finding entries -/

theorem resolve_eq_ok_iff {tree : FileTree} {path : FilePath} {names : List Text} :
    tree.resolve path = .ok names ↔
      '\x00' ∉ path.text ∧ Text.byteSize path.text < pathLimit ∧ path.text ≠ [] ∧
        (tree.route path).2.foldlM tree.enter (tree.route path).1 = .ok names := by
  unfold resolve
  by_cases hnul : '\x00' ∈ path.text
  · simp [hnul]
  · by_cases hlong : pathLimit ≤ Text.byteSize path.text
    · simp [hnul, hlong, Nat.not_lt.mpr hlong]
    · by_cases hempty : path.text = []
      · simp [hempty, pathLimit]
      · simp [hnul, hlong, Nat.not_le.mp hlong, hempty]

theorem find_eq_ok_iff {tree : FileTree} {path : FilePath} {node : FileNode} :
    tree.find path = .ok node ↔
      ∃ names, tree.resolve path = .ok names ∧ tree.node? names = some node := by
  unfold find
  cases tree.resolve path with
  | error fault => simp
  | ok names => cases hnode : tree.node? names <;> simp [hnode]

/-- Only a file has a text. -/
theorem isFile_of_readText {tree : FileTree} {path : FilePath} {text : Text}
    (h : tree.readText path = .ok text) : tree.isFile path = true := by
  unfold readText at h
  cases hfind : tree.find path with
  | error fault => simp [hfind] at h
  | ok node =>
      refine (isFile_iff_exists tree path).mpr ⟨node, hfind, ?_⟩
      unfold FileNode.isDirectory
      cases hcontent : node.content with
      | directory => simp [hfind, hcontent] at h
      | file bytes => rfl

theorem mem_entries_of_node? {tree : FileTree} {names : List Text} {node : FileNode}
    (h : tree.node? names = some node) : (names, node) ∈ tree.entries := by
  obtain ⟨before, after, hentries, -⟩ := List.lookup_eq_some_iff.mp h
  rw [hentries]
  exact List.mem_append_right _ List.mem_cons_self

/-- Spellings of one path that lead anywhere lead to the same names. -/
theorem resolve_eq_of_same {tree : FileTree} {p q : FilePath} {names names' : List Text}
    (hsame : p.Same q) (hp : tree.resolve p = .ok names) (hq : tree.resolve q = .ok names') :
    names = names' := by
  have hp' := foldlM_enter_filter (resolve_eq_ok_iff.mp hp).2.2.2
  have hq' := foldlM_enter_filter (resolve_eq_ok_iff.mp hq).2.2.2
  rw [start_route_of_same tree hsame, filter_moves_route_of_same tree hsame, hq'] at hp'
  exact (Except.ok.inj hp').symm

/-- Spellings of one path that lead anywhere lead to the same entry. -/
theorem find_eq_of_same {tree : FileTree} {p q : FilePath} {node node' : FileNode}
    (hsame : p.Same q) (hp : tree.find p = .ok node) (hq : tree.find q = .ok node') :
    node = node' := by
  obtain ⟨names, hp, hnode⟩ := find_eq_ok_iff.mp hp
  obtain ⟨names', hq, hnode'⟩ := find_eq_ok_iff.mp hq
  rw [resolve_eq_of_same hsame hp hq, hnode'] at hnode
  exact (Option.some.inj hnode).symm

/-- The last piece of a path that leads to a file moves. -/
theorem moves_last_of_isFile {tree : FileTree} {path : FilePath} (h : tree.isFile path = true)
    {last : Text} (hlast : (tree.route path).2.getLast? = some last) : Moves last := by
  obtain ⟨node, hfind, hfile⟩ := (isFile_iff_exists tree path).mp h
  obtain ⟨names, hresolve, hnode⟩ := find_eq_ok_iff.mp hfind
  have hfold := (resolve_eq_ok_iff.mp hresolve).2.2.2
  obtain ⟨init, hpieces⟩ := List.getLast?_eq_some_iff.mp hlast
  rw [hpieces, List.foldlM_append] at hfold
  cases hinit : init.foldlM tree.enter (tree.route path).1 with
  | error fault => simp [hinit, bind, Except.bind] at hfold
  | ok here =>
      rw [hinit] at hfold
      obtain ⟨next, hstep, hnil⟩ := foldlM_enter_cons.mp hfold
      obtain rfl : next = names := Except.ok.inj hnil
      -- a piece that does not move would make the file a directory
      apply Decidable.of_not_not
      intro hstay
      obtain ⟨⟨dir, hdir, hdirectory⟩, -⟩ := enter_eq_ok_iff.mp hstep
      rw [eq_of_enter_of_not_moves hstay hstep, hdir] at hnode
      cases hnode
      rw [hfile] at hdirectory
      cases hdirectory

/-- A path that leads to a file in some tree leads to an entry in every tree in which another
spelling of it does. -/
theorem find_of_same {tree other : FileTree} {p q : FilePath} {node : FileNode}
    (hfile : other.isFile p = true) (hsame : p.Same q) (hq : tree.find q = .ok node) :
    tree.find p = .ok node := by
  obtain ⟨_, hfind, -⟩ := (isFile_iff_exists other p).mp hfile
  obtain ⟨_, hresolve, -⟩ := find_eq_ok_iff.mp hfind
  obtain ⟨hnul, hshort, hne, -⟩ := resolve_eq_ok_iff.mp hresolve
  obtain ⟨names, hresolveq, hnode⟩ := find_eq_ok_iff.mp hq
  have hfold := foldlM_enter_filter (resolve_eq_ok_iff.mp hresolveq).2.2.2
  rw [← start_route_of_same tree hsame, ← filter_moves_route_of_same tree hsame] at hfold
  have hlast : ∀ last, (tree.route p).2.getLast? = some last → Moves last := by
    intro last hlast
    rw [pieces_route tree other p] at hlast
    exact moves_last_of_isFile hfile hlast
  exact find_eq_ok_iff.mpr
    ⟨names, resolve_eq_ok_iff.mpr ⟨hnul, hshort, hne, foldlM_enter_of_filter hlast hfold⟩, hnode⟩

end ComponentLoader.FileTree
