import ComponentLoader.Cache.Identity
import ComponentLoader.Proofs.FilePath.Order
import ComponentLoader.Proofs.FileTree.Spelling
import ComponentLoader.Proofs.OrderedMap
import ComponentLoader.Proofs.Text.Basic
set_option autoImplicit false

/-!
# What identities tell (SPEC §4.1)

An identity is a stamp in other words, so where stamps tell contents apart identities do too.  The
memo of a pass answers for all spellings of a path with the identity of the first one that it saw:
it `Holds` of a tree if every answer is the identity of some spelling there.  Of two spellings one
may lead nowhere; where that matters, `observe_of_shows` gives back the identity of the path itself,
for paths that have once been files.
-/

namespace ComponentLoader

/-! ## Stamps -/

theorem CacheKey.ofStamp_inj {a b : FileStamp} (h : ofStamp a = ofStamp b) : a = b := by
  have hdash : '-'.isDigit = false := rfl
  have htoken : Text.decimal a.inode ++
        '-' :: (Text.decimal a.modified ++ '-' :: Text.decimal a.length) =
      Text.decimal b.inode ++ '-' :: (Text.decimal b.modified ++ '-' :: Text.decimal b.length) := by
    simpa [ofStamp] using h
  obtain ⟨hinode, hrest⟩ := Text.append_cons_inj (Text.not_mem_decimal hdash _)
    (Text.not_mem_decimal hdash _) htoken
  obtain ⟨hmodified, hlength⟩ := Text.append_cons_inj (Text.not_mem_decimal hdash _)
    (Text.not_mem_decimal hdash _) hrest
  obtain ⟨inode, modified, length⟩ := a
  obtain ⟨inode', modified', length'⟩ := b
  obtain rfl : inode = inode' := Text.decimal_inj hinode
  obtain rfl : modified = modified' := Text.decimal_inj hmodified
  obtain rfl : length = length' := Text.decimal_inj hlength
  rfl

namespace FileTree

/-- At no path does the same stamp stand for different contents in the two trees. -/
def StampsTell (tree other : FileTree) : Prop :=
  ∀ path node node', tree.find path = .ok node → other.find path = .ok node' →
    stampOf node = stampOf node' → node.content = node'.content

/-- Stamps tell contents apart if those of the listed entries do. -/
theorem stampsTell_of_entries {tree other : FileTree}
    (h : ∀ entry ∈ tree.entries, ∀ entry' ∈ other.entries,
      stampOf entry.2 = stampOf entry'.2 → entry.2.content = entry'.2.content) :
    tree.StampsTell other := by
  intro path node node' hfind hfind' hstamp
  obtain ⟨names, -, hnode⟩ := find_eq_ok_iff.mp hfind
  obtain ⟨names', -, hnode'⟩ := find_eq_ok_iff.mp hfind'
  exact h _ (mem_entries_of_node? hnode) _ (mem_entries_of_node? hnode') hstamp

/-- Some spelling of a path has this identity. -/
def Shows (files : FileTree) (path : FilePath) (key : CacheKey) : Prop :=
  ∃ spelling : FilePath, spelling.Same path ∧ IdentityMemo.observe files spelling = .ok key

end FileTree

namespace IdentityMemo

theorem observe_eq_ok_iff {files : FileTree} {path : FilePath} {key : CacheKey} :
    observe files path = .ok key ↔
      ∃ node, files.find path = .ok node ∧ key = .ofStamp (FileTree.stampOf node) := by
  unfold observe FileTree.stamp
  cases files.find path with
  | error fault => simp [Except.map]
  | ok node => simp [Except.map, eq_comm]

end IdentityMemo

namespace FileTree

variable {files other : FileTree} {path : FilePath} {key : CacheKey}

theorem shows_of_observe (h : IdentityMemo.observe files path = .ok key) : files.Shows path key :=
  ⟨path, .refl path, h⟩

theorem Shows.of_same {spelling : FilePath} (h : files.Shows path key)
    (hsame : path.Same spelling) : files.Shows spelling key := by
  obtain ⟨shown, hshown, hobserve⟩ := h
  exact ⟨shown, hshown.trans hsame, hobserve⟩

/-- All spellings of a path that have an identity have the same one. -/
theorem Shows.key_eq {key' : CacheKey} (h : files.Shows path key) (h' : files.Shows path key') :
    key = key' := by
  obtain ⟨spelling, hsame, hobserve⟩ := h
  obtain ⟨spelling', hsame', hobserve'⟩ := h'
  obtain ⟨node, hfind, rfl⟩ := IdentityMemo.observe_eq_ok_iff.mp hobserve
  obtain ⟨node', hfind', rfl⟩ := IdentityMemo.observe_eq_ok_iff.mp hobserve'
  rw [find_eq_of_same (hsame.trans hsame'.symm) hfind hfind']

/-- A path that has once been a file has itself the identity that some spelling of it has. -/
theorem observe_of_shows (hfile : other.isFile path = true) (h : files.Shows path key) :
    IdentityMemo.observe files path = .ok key := by
  obtain ⟨spelling, hsame, hobserve⟩ := h
  obtain ⟨node, hfind, rfl⟩ := IdentityMemo.observe_eq_ok_iff.mp hobserve
  exact IdentityMemo.observe_eq_ok_iff.mpr ⟨node, find_of_same hfile hsame.symm hfind, rfl⟩

/-- A file that kept its identity kept its text. -/
theorem readText_eq_of_shows {text : Text} (htell : files.StampsTell other)
    (hnow : files.Shows path key) (hthen : other.Shows path key)
    (htext : other.readText path = .ok text) : files.readText path = .ok text := by
  have hfile := isFile_of_readText htext
  obtain ⟨node, hfind, hkey⟩ :=
    IdentityMemo.observe_eq_ok_iff.mp (observe_of_shows hfile hnow)
  obtain ⟨node', hfind', hkey'⟩ :=
    IdentityMemo.observe_eq_ok_iff.mp (observe_of_shows hfile hthen)
  have hcontent : node.content = node'.content :=
    htell path node node' hfind hfind' (CacheKey.ofStamp_inj (hkey.symm.trans hkey'))
  unfold readText at htext ⊢
  simp only [hfind'] at htext
  simp only [hfind, hcontent]
  exact htext

end FileTree

/-! ## Memos -/

namespace IdentityMemo

/-- Every identity that the memo remembers is one that the tree shows. -/
def Holds (memo : IdentityMemo) (files : FileTree) : Prop :=
  ∀ path key, memo.known.get? path = some key → files.Shows path key

variable {memo memo' : IdentityMemo} {files : FileTree}

theorem holds_empty (files : FileTree) : empty.Holds files := by
  intro path key h
  cases h

theorem Holds.remember (h : memo.Holds files) {path : FilePath} {key : CacheKey}
    (hobserve : observe files path = .ok key) :
    IdentityMemo.Holds ⟨memo.known.insert path key⟩ files := by
  intro asked found hfound
  rw [OrderedMap.get?_insert] at hfound
  split at hfound
  · rename_i hcompare
    cases hfound
    exact (FileTree.shows_of_observe hobserve).of_same
      (FilePath.compare_eq_iff_same.mp hcompare).symm
  · exact h asked found hfound

/-- An answer of the memo is an identity that the tree shows, and the memo still holds. -/
theorem Holds.identity (h : memo.Holds files) {path : FilePath} {key : CacheKey}
    (hidentity : memo.identity files path = .ok (key, memo')) :
    memo'.Holds files ∧ files.Shows path key := by
  unfold IdentityMemo.identity at hidentity
  cases hknown : memo.known.get? path with
  | some found =>
      simp only [hknown] at hidentity
      cases hidentity
      exact ⟨h, h path key hknown⟩
  | none =>
      simp only [hknown] at hidentity
      cases hobserve : observe files path with
      | error e => simp [hobserve] at hidentity
      | ok observed =>
          simp only [hobserve] at hidentity
          cases hidentity
          exact ⟨h.remember hobserve, FileTree.shows_of_observe hobserve⟩

/-- A path without an answer has no identity. -/
theorem observe_of_identity_eq_error {path : FilePath} {e : IdentityError}
    (hidentity : memo.identity files path = .error e) : observe files path = .error e := by
  unfold IdentityMemo.identity at hidentity
  cases hknown : memo.known.get? path with
  | some found => simp [hknown] at hidentity
  | none =>
      simp only [hknown] at hidentity
      cases hobserve : observe files path with
      | error e' =>
          simp only [hobserve] at hidentity
          cases hidentity
          rfl
      | ok observed => simp [hobserve] at hidentity

/-- A memo that confirms some records holds afterwards, and the tree shows what was recorded. -/
theorem Holds.confirm (h : memo.Holds files) {entries : List (FilePath × CacheKey)} {valid : Bool}
    (hconfirm : memo.confirm files entries = (valid, memo')) :
    memo'.Holds files ∧ (valid = true → ∀ entry ∈ entries, files.Shows entry.1 entry.2) := by
  induction entries generalizing memo with
  | nil =>
      cases hconfirm
      exact ⟨h, fun _ entry hmem => (nomatch hmem)⟩
  | cons first rest ih =>
      obtain ⟨path, recorded⟩ := first
      unfold IdentityMemo.confirm at hconfirm
      cases hidentity : memo.identity files path with
      | error e =>
          simp only [hidentity] at hconfirm
          cases hconfirm
          exact ⟨h, fun hvalid => (nomatch hvalid)⟩
      | ok answer =>
          obtain ⟨key, next⟩ := answer
          obtain ⟨hnext, hshows⟩ := h.identity hidentity
          simp only [hidentity] at hconfirm
          split at hconfirm
          · rename_i hkey
            subst hkey
            obtain ⟨hholds, hrest⟩ := ih hnext hconfirm
            refine ⟨hholds, ?_⟩
            intro hvalid entry hmem
            rcases List.mem_cons.mp hmem with rfl | hmem
            · exact hshows
            · exact hrest hvalid entry hmem
          · cases hconfirm
            exact ⟨hnext, fun hvalid => (nomatch hvalid)⟩

end IdentityMemo

end ComponentLoader
