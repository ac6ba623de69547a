import ComponentLoader.Cache.Entry
import ComponentLoader.Proofs.Cache.Identity
set_option autoImplicit false

/-!
# Identities within a pass (SPEC §3, §4.1)

The memo of a pass answers for a path once and for all: what it remembers it goes on
answering, whatever becomes of the file.  `Gives` says what a memo answers, `Remembers` that
the answer does not depend on the files any more.  An entry may be used exactly as long as the
memo gives its identities, and after it was used the memo remembers them, so that it stays
usable for the rest of the pass.

Between two passes over the same files it is the files that carry an entry: one whose identities
they show is usable with every memo of theirs, if all its paths have once been files.
-/

namespace ComponentLoader

namespace IdentityMemo

/-- The memo has this answer for a path. -/
def Remembers (memo : IdentityMemo) (path : FilePath) (key : CacheKey) : Prop :=
  memo.known.get? path = some key

/-- The memo answers this for a path. -/
def Gives (memo : IdentityMemo) (files : FileTree) (path : FilePath) (key : CacheKey) : Prop :=
  ∃ next, memo.identity files path = .ok (key, next)

/-- The second memo is the first one after some questions about the files. -/
structure Grows (memo : IdentityMemo) (files : FileTree) (next : IdentityMemo) : Prop where
  remembers : ∀ path key, memo.Remembers path key → next.Remembers path key
  gives : ∀ path key, memo.Gives files path key → next.Gives files path key
  holds : memo.Holds files → next.Holds files

variable {memo next : IdentityMemo} {files : FileTree} {path : FilePath} {key : CacheKey}

theorem Remembers.gives (h : memo.Remembers path key) (files : FileTree) :
    memo.Gives files path key := by
  refine ⟨memo, ?_⟩
  unfold IdentityMemo.identity
  rw [show memo.known.get? path = some key from h]

/-- An answer is remembered, or it is observed now. -/
theorem gives_iff :
    memo.Gives files path key ↔
      memo.Remembers path key ∨ memo.known.get? path = none ∧ observe files path = .ok key := by
  unfold Gives Remembers IdentityMemo.identity
  cases hknown : memo.known.get? path with
  | some found => simp
  | none => cases hobserve : observe files path <;> simp

theorem Gives.unique {key' : CacheKey} (h : memo.Gives files path key)
    (h' : memo.Gives files path key') : key = key' := by
  obtain ⟨next, hnext⟩ := h
  obtain ⟨next', hnext'⟩ := h'
  rw [hnext] at hnext'
  cases hnext'
  rfl

/-- What is remembered of one spelling is remembered of all. -/
theorem Remembers.of_same {spelling : FilePath} (h : memo.Remembers path key)
    (hsame : spelling.Same path) : memo.Remembers spelling key :=
  (OrderedMap.get?_congr (FilePath.compare_eq_iff_same.mpr hsame)).trans h

/-! ## Questions -/

theorem Grows.refl (memo : IdentityMemo) (files : FileTree) : memo.Grows files memo :=
  ⟨fun _ _ h => h, fun _ _ h => h, fun h => h⟩

theorem Grows.trans {later : IdentityMemo} (h : memo.Grows files next)
    (h' : next.Grows files later) : memo.Grows files later where
  remembers path key hkey := h'.remembers path key (h.remembers path key hkey)
  gives path key hkey := h'.gives path key (h.gives path key hkey)
  holds hholds := h'.holds (h.holds hholds)

/-- An observed identity that was not known contradicts no answer: one for another spelling of the
path is observed of the same entry. -/
theorem grows_insert (hnone : memo.known.get? path = none)
    (hobserve : observe files path = .ok key) :
    memo.Grows files ⟨memo.known.insert path key⟩ := by
  have hremembers : ∀ asked found, memo.Remembers asked found →
      Remembers ⟨memo.known.insert path key⟩ asked found := by
    intro asked found hfound
    unfold Remembers at hfound ⊢
    rw [OrderedMap.get?_insert]
    split
    · rename_i hcompare
      rw [OrderedMap.get?_congr hcompare, hnone] at hfound
      cases hfound
    · exact hfound
  refine ⟨hremembers, ?_, fun h => h.remember hobserve⟩
  intro asked found hgives
  rcases gives_iff.mp hgives with hfound | ⟨hunknown, hobserved⟩
  · exact (hremembers asked found hfound).gives files
  · by_cases hcompare : compare asked path = .eq
    · have hsame := FilePath.compare_eq_iff_same.mp hcompare
      have hshows := (FileTree.shows_of_observe hobserve).of_same hsame.symm
      obtain rfl : key = found := hshows.key_eq (FileTree.shows_of_observe hobserved)
      apply Remembers.gives
      unfold Remembers
      rw [OrderedMap.get?_insert, if_pos hcompare]
    · refine gives_iff.mpr (Or.inr ⟨?_, hobserved⟩)
      rw [OrderedMap.get?_insert, if_neg hcompare]
      exact hunknown

/-- An answer is remembered from then on. -/
theorem grows_of_identity (h : memo.identity files path = .ok (key, next)) :
    memo.Grows files next ∧ next.Remembers path key := by
  unfold IdentityMemo.identity at h
  cases hknown : memo.known.get? path with
  | some found =>
      simp only [hknown] at h
      cases h
      exact ⟨.refl memo files, hknown⟩
  | none =>
      simp only [hknown] at h
      cases hobserve : observe files path with
      | error e => simp [hobserve] at h
      | ok observed =>
          simp only [hobserve] at h
          cases h
          exact ⟨grows_insert hknown hobserve, OrderedMap.get?_insert_self memo.known path key⟩

/-- Confirmed records are remembered from then on. -/
theorem grows_of_confirm {records : List (FilePath × CacheKey)} {valid : Bool}
    (h : memo.confirm files records = (valid, next)) :
    memo.Grows files next ∧
      (valid = true → ∀ record ∈ records, next.Remembers record.1 record.2) := by
  induction records generalizing memo with
  | nil =>
      cases h
      exact ⟨.refl _ files, fun _ _ hmem => absurd hmem List.not_mem_nil⟩
  | cons first rest ih =>
      obtain ⟨path, recorded⟩ := first
      unfold IdentityMemo.confirm at h
      cases hidentity : memo.identity files path with
      | error e =>
          simp only [hidentity] at h
          cases h
          exact ⟨.refl _ files, fun hvalid => absurd hvalid Bool.false_ne_true⟩
      | ok answer =>
          obtain ⟨key, between⟩ := answer
          obtain ⟨hgrows, hremembers⟩ := grows_of_identity hidentity
          simp only [hidentity] at h
          split at h
          · rename_i hkey
            subst hkey
            obtain ⟨hgrows', hrest⟩ := ih h
            refine ⟨hgrows.trans hgrows', ?_⟩
            intro hvalid record hmem
            rcases List.mem_cons.mp hmem with rfl | hmem
            · exact hgrows'.remembers _ _ hremembers
            · exact hrest hvalid record hmem
          · cases h
            exact ⟨hgrows, fun hvalid => absurd hvalid Bool.false_ne_true⟩

/-- Records that the memo gives are confirmed: no question changes the answer to the next ones. -/
theorem confirm_of_gives {records : List (FilePath × CacheKey)}
    (h : ∀ record ∈ records, memo.Gives files record.1 record.2) :
    ∃ next, memo.confirm files records = (true, next) := by
  induction records generalizing memo with
  | nil => exact ⟨_, rfl⟩
  | cons first rest ih =>
      obtain ⟨path, recorded⟩ := first
      obtain ⟨between, hbetween⟩ := h _ List.mem_cons_self
      have hgrows := (grows_of_identity hbetween).1
      obtain ⟨next, hnext⟩ := ih fun record hmem =>
        hgrows.gives _ _ (h record (List.mem_cons_of_mem _ hmem))
      refine ⟨next, ?_⟩
      unfold IdentityMemo.confirm
      simp only [hbetween, if_true]
      exact hnext

end IdentityMemo

/-! ## Entries -/

namespace CacheEntry

/-- The memo gives the identities that are recorded with an entry for the file at a path. -/
def Usable (entry : CacheEntry) (files : FileTree) (memo : IdentityMemo) (path : FilePath) : Prop :=
  memo.Gives files path entry.key ∧
    ∀ record ∈ entry.dependencies.entries, memo.Gives files record.1 record.2

/-- The memo remembers the identities that are recorded with an entry for the file at a path. -/
def Pinned (entry : CacheEntry) (memo : IdentityMemo) (path : FilePath) : Prop :=
  memo.Remembers path entry.key ∧
    ∀ record ∈ entry.dependencies.entries, memo.Remembers record.1 record.2

/-- The files show the identities that are recorded with an entry for the file at a path. -/
def Shown (entry : CacheEntry) (files : FileTree) (path : FilePath) : Prop :=
  files.Shows path entry.key ∧
    ∀ record ∈ entry.dependencies.entries, files.Shows record.1 record.2

variable {entry : CacheEntry} {files : FileTree} {memo next : IdentityMemo} {path : FilePath}
  {current : CacheKey}

theorem Pinned.usable (h : entry.Pinned memo path) (files : FileTree) :
    entry.Usable files memo path :=
  ⟨h.1.gives files, fun record hmem => (h.2 record hmem).gives files⟩

theorem Pinned.shown (h : entry.Pinned memo path) (hholds : memo.Holds files) :
    entry.Shown files path :=
  ⟨hholds path entry.key h.1, fun record hmem => hholds record.1 record.2 (h.2 record hmem)⟩

theorem Usable.grows (h : entry.Usable files memo path) (hgrows : memo.Grows files next) :
    entry.Usable files next path :=
  ⟨hgrows.gives _ _ h.1, fun record hmem => hgrows.gives _ _ (h.2 record hmem)⟩

theorem Pinned.grows (h : entry.Pinned memo path) (hgrows : memo.Grows files next) :
    entry.Pinned next path :=
  ⟨hgrows.remembers _ _ h.1, fun record hmem => hgrows.remembers _ _ (h.2 record hmem)⟩

/-- A usable entry passes its check. -/
theorem Usable.isValid (h : entry.Usable files memo path)
    (hcurrent : memo.Gives files path current) :
    ∃ next, entry.isValid files current memo = (true, next) := by
  obtain rfl : entry.key = current := h.1.unique hcurrent
  obtain ⟨next, hnext⟩ := IdentityMemo.confirm_of_gives h.2
  exact ⟨next, by unfold CacheEntry.isValid; rw [if_pos rfl, hnext]⟩

theorem key_eq_of_isValid (h : entry.isValid files current memo = (true, next)) :
    entry.key = current := by
  unfold CacheEntry.isValid at h
  split at h
  · assumption
  · cases h

theorem grows_of_isValid {valid : Bool} (h : entry.isValid files current memo = (valid, next)) :
    memo.Grows files next := by
  unfold CacheEntry.isValid at h
  split at h
  · exact (IdentityMemo.grows_of_confirm h).1
  · cases h
    exact .refl memo files

/-- An entry that passed its check stays usable. -/
theorem pinned_of_isValid (hcurrent : memo.Remembers path current)
    (h : entry.isValid files current memo = (true, next)) : entry.Pinned next path := by
  have hgrows := grows_of_isValid h
  unfold CacheEntry.isValid at h
  split at h
  · rename_i hkey
    subst hkey
    exact ⟨hgrows.remembers _ _ hcurrent, (IdentityMemo.grows_of_confirm h).2 rfl⟩
  · cases h

end CacheEntry

/-! ## Paths that have been files -/

/-- The path leads to a file in some tree. -/
def FilePath.NamesFile (path : FilePath) : Prop :=
  ∃ files : FileTree, files.isFile path = true

/-- All records of an entry are about paths that have been files. -/
def CacheEntry.RecordsFiles (entry : CacheEntry) : Prop :=
  ∀ record ∈ entry.dependencies.entries, record.1.NamesFile

/-- A memo of some files gives the identity that they show, for a path that has once been a file. -/
theorem IdentityMemo.Holds.gives {memo : IdentityMemo} {files : FileTree} (h : memo.Holds files)
    {path : FilePath} {key : CacheKey} (hfile : path.NamesFile) (hshows : files.Shows path key) :
    memo.Gives files path key := by
  obtain ⟨other, hother⟩ := hfile
  refine gives_iff.mpr ?_
  cases hknown : memo.known.get? path with
  | none => exact Or.inr ⟨rfl, FileTree.observe_of_shows hother hshows⟩
  | some found =>
      obtain rfl : found = key := (h path found hknown).key_eq hshows
      exact Or.inl hknown

/-- So an entry is usable with every memo of files that show its identities. -/
theorem CacheEntry.Shown.usable {entry : CacheEntry} {files : FileTree} {path : FilePath}
    (h : entry.Shown files path) (hfile : path.NamesFile) (hrecords : entry.RecordsFiles)
    {memo : IdentityMemo} (hholds : memo.Holds files) : entry.Usable files memo path :=
  ⟨hholds.gives hfile h.1, fun record hmem => hholds.gives (hrecords record hmem) (h.2 record hmem)⟩

end ComponentLoader
