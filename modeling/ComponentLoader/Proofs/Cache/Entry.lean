import ComponentLoader.Cache.Entry
import ComponentLoader.Proofs.Cache.Identity
import ComponentLoader.Proofs.Style.Dependence
set_option autoImplicit false

/-!
# What a kept stylesheet is worth (SPEC §4.2)

An entry is `MadeIn` a tree if the pipeline made it from there and the identities of that tree
were recorded with it.  Main statement: in a later tree that shows the same identities for all
recorded paths, and that has gained no file, the pipeline would make the same of the same
text.  The argument needs neither that all records are spelled as they were read nor that
unrecorded files are unchanged.
-/

namespace ComponentLoader

/-! ## Records -/

/-- Some paths in the order in which a map keeps them, each under its first spelling. -/
def FilePath.inMapOrder (paths : List FilePath) : List FilePath :=
  (paths.foldl (fun map path => map.insert path ())
    (OrderedMap.empty : OrderedMap FilePath Unit)).keys

theorem FilePath.get?_foldl_insert {paths : List FilePath} {map : OrderedMap FilePath Unit}
    {path : FilePath} (h : path ∈ paths ∨ map.get? path = some ()) :
    (paths.foldl (fun map path => map.insert path ()) map).get? path = some () := by
  induction paths generalizing map with
  | nil =>
      rcases h with h | h
      · cases h
      · exact h
  | cons first rest ih =>
      apply ih
      rcases h with h | h
      · rcases List.mem_cons.mp h with rfl | h
        · exact Or.inr (OrderedMap.get?_insert_self map path ())
        · exact Or.inl h
      · right
        rw [OrderedMap.get?_insert]
        split
        · rfl
        · exact h

theorem FilePath.exists_same_mem_inMapOrder {paths : List FilePath} {path : FilePath}
    (h : path ∈ paths) : ∃ key ∈ inMapOrder paths, key.Same path := by
  obtain ⟨key, hmem, hcompare⟩ :=
    OrderedMap.exists_mem_of_get?_eq_some (get?_foldl_insert (Or.inl h))
  exact ⟨key, List.mem_map.mpr ⟨_, hmem, rfl⟩, (compare_eq_iff_same.mp hcompare).symm⟩

/-- The map has a record for each of some paths and for no others, and the tree shows every identity
in it. -/
structure OrderedMap.Records (known : OrderedMap FilePath CacheKey) (files : FileTree)
    (paths : List FilePath) : Prop where
  keys : known.keys = FilePath.inMapOrder paths
  shows : ∀ record ∈ known.entries, files.Shows record.1 record.2

namespace OrderedMap

variable {known : OrderedMap FilePath CacheKey} {files : FileTree} {paths : List FilePath}

theorem records_empty (files : FileTree) : Records .empty files [] :=
  ⟨rfl, fun _ hmem => (nomatch hmem)⟩

theorem keys_insert_eq_inMapOrder (h : known.keys = FilePath.inMapOrder paths) (path : FilePath)
    (key : CacheKey) : (known.insert path key).keys = FilePath.inMapOrder (paths ++ [path]) := by
  unfold FilePath.inMapOrder
  rw [List.foldl_append]
  exact keys_insert_congr h path key ()

theorem Records.insert (h : known.Records files paths) {path : FilePath} {key : CacheKey}
    (hshows : files.Shows path key) : (known.insert path key).Records files (paths ++ [path]) := by
  refine ⟨keys_insert_eq_inMapOrder h.keys path key, ?_⟩
  intro record hmem
  rcases mem_entries_insert hmem with hmem | ⟨hvalue, hkey⟩
  · exact h.shows record hmem
  · rw [hvalue]
    rcases hkey with hkey | ⟨hcompare, -⟩
    · rw [hkey]
      exact hshows
    · exact hshows.of_same (FilePath.compare_eq_iff_same.mp hcompare)

theorem Records.exists_same (h : known.Records files paths) {path : FilePath}
    (hmem : path ∈ paths) :
    ∃ record ∈ known.entries, record.1.Same path := by
  obtain ⟨key, hkey, hsame⟩ := FilePath.exists_same_mem_inMapOrder hmem
  rw [← h.keys] at hkey
  obtain ⟨record, hrecord, rfl⟩ := List.mem_map.mp hkey
  exact ⟨record, hrecord, hsame⟩

end OrderedMap

/-! ## Entries -/

/-- The entry holds what the pipeline makes of its source in a tree, with the identities in that
tree of its own file, of the files that it was made from, and of those in `also`. -/
structure CacheEntry.MadeIn (entry : CacheEntry) (pipeline : StylePipeline) (files : FileTree)
    (request : StyleRequest) (also : List FilePath) (processed : ProcessedStyle) : Prop where
  key : files.Shows request.file entry.key
  process : pipeline.process files entry.source request = .ok processed
  code : entry.code = processed.code
  diagnostics : entry.diagnostics = []
  dependencies : entry.dependencies.Records files (processed.dependencies ++ also)

section

variable {pipeline : StylePipeline} {files : FileTree} {request : StyleRequest}

/-- What was made from a tree is what a later tree gives that still shows
all recorded identities. -/
theorem CacheEntry.MadeIn.process_now {entry : CacheEntry} {also : List FilePath}
    {processed : ProcessedStyle} (h : entry.MadeIn pipeline files request also processed)
    (hreports : pipeline.preprocessor.ReportsReads) {now : FileTree} (hwithin : now.Within files)
    (htell : now.StampsTell files)
    (hshows : ∀ record ∈ entry.dependencies.entries, now.Shows record.1 record.2) :
    pipeline.process now entry.source request = .ok processed := by
  obtain ⟨read, hreadable, hcovered, -, hsame⟩ :=
    StylePipeline.process_dependence hreports h.process
  have hadds : now.AddsNoFile files := fun path hfile => hwithin.isFile hfile
  apply hsame now hadds
  intro path hmem
  obtain ⟨text, htext⟩ := hreadable path hmem
  obtain ⟨dependency, hdependency, hpath⟩ := hcovered path hmem
  obtain ⟨record, hrecord, hspelling⟩ :=
    h.dependencies.exists_same (List.mem_append_left also hdependency)
  have hsamePath : record.1.Same path := hspelling.trans hpath
  have hnow : now.Shows path record.2 := (hshows record hrecord).of_same hsamePath
  have hthen : files.Shows path record.2 :=
    (h.dependencies.shows record hrecord).of_same hsamePath
  rw [htext]
  exact FileTree.readText_eq_of_shows htell hnow hthen htext

theorem FileTree.exists_observe_of_isFile {path : FilePath} (h : files.isFile path = true) :
    ∃ key, IdentityMemo.observe files path = .ok key := by
  obtain ⟨node, hfind, -⟩ := (isFile_iff_exists files path).mp h
  exact ⟨_, IdentityMemo.observe_eq_ok_iff.mpr ⟨node, hfind, rfl⟩⟩

theorem FileTree.exists_observe_of_readText {path : FilePath} {text : Text}
    (h : files.readText path = .ok text) :
    ∃ key, IdentityMemo.observe files path = .ok key :=
  exists_observe_of_isFile (isFile_of_readText h)

/-- All dependencies of a stylesheet have identities if its own file has one. -/
theorem StylePipeline.exists_observe_of_process (hloads : pipeline.preprocessor.LoadsFiles)
    {source : Text} {processed : ProcessedStyle}
    (hprocess : pipeline.process files source request = .ok processed)
    (hfile : ∃ key, IdentityMemo.observe files request.file = .ok key) :
    ∀ dependency ∈ processed.dependencies,
      ∃ key, IdentityMemo.observe files dependency = .ok key := by
  intro dependency hmem
  rcases mem_dependencies_of_process hprocess hmem with rfl | ⟨out, hout, hloaded⟩
  · exact hfile
  · exact FileTree.exists_observe_of_isFile (hloads _ _ _ _ out hout dependency hloaded)

end

end ComponentLoader
