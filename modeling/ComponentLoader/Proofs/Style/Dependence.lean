import ComponentLoader.Proofs.FileTree.Change
import ComponentLoader.Style.Pipeline
set_option autoImplicit false

/-!
# What a stylesheet depends on (SPEC §4.3)

Inlining imports asks a file tree two things: whether a path is a file, and what its text is.  Every
path of the second kind is reported, so a tree that adds no file and has the same text at every
reported path gives the same result.  The first kind needs no report as long as no file is added: a
better place for an import, empty then, is still empty.

`Covers` carries both halves through the recursion, for one function after the other: what is
reported was read, and what was read is enough.
-/

namespace ComponentLoader

namespace FileTree

/-- The tree has no file that `other` has not. -/
def AddsNoFile (tree other : FileTree) : Prop :=
  ∀ path, tree.isFile path = true → other.isFile path = true

/-- The tree has the text of `other` at each of some paths. -/
def AgreesOn (tree other : FileTree) (paths : List FilePath) : Prop :=
  ∀ path ∈ paths, tree.readText path = other.readText path

/-- The text at each of some paths can be read. -/
def Readable (tree : FileTree) (paths : List FilePath) : Prop :=
  ∀ path ∈ paths, ∃ text, tree.readText path = .ok text

end FileTree

/-! ## Inlining -/

namespace Import

/-- If `result` was made from `files`, what it reports could be read there, and a tree with these
texts gives `result'` the same outcome. -/
def Covers (files other : FileTree) (result result' : Except StyleError Inlined) : Prop :=
  ∀ out, result = .ok out →
    files.Readable out.loaded ∧ (other.AgreesOn files out.loaded → result' = .ok out)

variable {files other : FileTree}

theorem inlineAll_cons_eq_ok {α : Type} {inline : α → Except StyleError Inlined} {x : α}
    {rest : List α} {out : Inlined} :
    inlineAll inline (x :: rest) = .ok out ↔
      ∃ first others, inline x = .ok first ∧ inlineAll inline rest = .ok others ∧
        first ++ others = out := by
  cases hfirst : inline x with
  | error e => simp [inlineAll, hfirst, bind, Except.bind]
  | ok first =>
      cases hothers : inlineAll inline rest with
      | error e => simp [inlineAll, hfirst, hothers, bind, Except.bind]
      | ok others =>
          simp [inlineAll, hfirst, hothers, bind, Except.bind, pure, Except.pure]

theorem loaded_append (a b : Inlined) : (a ++ b).loaded = a.loaded ++ b.loaded := rfl

theorem covers_inlineAll {α : Type} {inline inline' : α → Except StyleError Inlined}
    (h : ∀ x, Covers files other (inline x) (inline' x)) (xs : List α) :
    Covers files other (inlineAll inline xs) (inlineAll inline' xs) := by
  induction xs with
  | nil =>
      intro out hout
      obtain rfl : (⟨[], []⟩ : Inlined) = out := Except.ok.inj hout
      exact ⟨fun path hmem => (nomatch hmem), fun _ => rfl⟩
  | cons x rest ih =>
      intro out hout
      obtain ⟨first, others, hfirst, hothers, rfl⟩ := inlineAll_cons_eq_ok.mp hout
      obtain ⟨hreadFirst, hsameFirst⟩ := h x first hfirst
      obtain ⟨hreadOthers, hsameOthers⟩ := ih others hothers
      rw [loaded_append]
      refine ⟨?_, ?_⟩
      · intro path hmem
        rcases List.mem_append.mp hmem with hmem | hmem
        · exact hreadFirst path hmem
        · exact hreadOthers path hmem
      · intro hagrees
        have hfirst' := hsameFirst fun path hmem => hagrees path (List.mem_append_left _ hmem)
        have hothers' := hsameOthers fun path hmem => hagrees path (List.mem_append_right _ hmem)
        exact inlineAll_cons_eq_ok.mpr ⟨first, others, hfirst', hothers', rfl⟩

/-- The place of an import stays the best one as long as it stays a file and none is added. -/
theorem find?_eq_some_of_addsNoFile (hadds : other.AddsNoFile files) {importer : FilePath}
    {target : Text} {path : FilePath} (h : find? files importer target = some path)
    (hfile : other.isFile path = true) : find? other importer target = some path := by
  obtain ⟨-, before, after, hcandidates, hnone⟩ := List.find?_eq_some_iff_append.mp h
  refine List.find?_eq_some_iff_append.mpr ⟨hfile, before, after, hcandidates, ?_⟩
  intro candidate hmem
  have hmissing := hnone candidate hmem
  cases hother : other.isFile candidate with
  | false => rfl
  | true => simp [hadds candidate hother] at hmissing

theorem covers_inlineTarget (hadds : other.AddsNoFile files)
    {inline inline' : Chain → FilePath → Text → Except StyleError Inlined}
    (h : ∀ chain path text, Covers files other (inline chain path text) (inline' chain path text))
    (chain : Chain) (importer : FilePath) (target : Text) :
    Covers files other (inlineTarget files inline chain importer target)
      (inlineTarget other inline' chain importer target) := by
  intro out hout
  unfold inlineTarget at hout ⊢
  cases hfind : find? files importer target with
  | none => simp [hfind] at hout
  | some path =>
      simp only [hfind] at hout
      split at hout
      · cases hout
      · rename_i hchain
        cases htext : files.readText path with
        | error fault => simp [htext] at hout
        | ok text =>
            simp only [htext] at hout
            cases hinner : inline (path.segments :: chain) path text with
            | error e => simp [hinner, bind, Except.bind] at hout
            | ok inner =>
                obtain rfl : (⟨endLine inner.css, path :: inner.loaded⟩ : Inlined) = out := by
                  simpa [hinner, bind, Except.bind, pure, Except.pure] using hout
                obtain ⟨hread, hsame⟩ := h _ path text inner hinner
                refine ⟨?_, ?_⟩
                · intro read hmem
                  rcases List.mem_cons.mp hmem with rfl | hmem
                  · exact ⟨text, htext⟩
                  · exact hread read hmem
                · intro hagrees
                  have htext' : other.readText path = .ok text :=
                    (hagrees path List.mem_cons_self).trans htext
                  have hfind' := find?_eq_some_of_addsNoFile hadds hfind
                    (FileTree.isFile_of_readText htext')
                  have hinner' := hsame fun read hmem =>
                    hagrees read (List.mem_cons_of_mem _ hmem)
                  simp [hfind', hchain, htext', hinner', bind, Except.bind, pure, Except.pure]

theorem covers_inlineLine (hadds : other.AddsNoFile files)
    {inline inline' : Chain → FilePath → Text → Except StyleError Inlined}
    (h : ∀ chain path text, Covers files other (inline chain path text) (inline' chain path text))
    (chain : Chain) (importer : FilePath) (line : Text) :
    Covers files other (inlineLine files inline chain importer line)
      (inlineLine other inline' chain importer line) := by
  unfold inlineLine
  cases targets? line with
  | none =>
      intro out hout
      obtain rfl : (⟨line, []⟩ : Inlined) = out := Except.ok.inj hout
      exact ⟨fun path hmem => (nomatch hmem), fun _ => rfl⟩
  | some targets =>
      exact covers_inlineAll (fun target => covers_inlineTarget hadds h chain importer target)
        targets

/-- The induction is on the levels of imports; every level is a list of lines. -/
theorem covers_inlineWithin (hadds : other.AddsNoFile files) (n : Nat) (chain : Chain)
    (file : FilePath) (source : Text) :
    Covers files other (inlineWithin files n chain file source)
      (inlineWithin other n chain file source) := by
  induction n generalizing chain file source with
  | zero => exact fun out hout => nomatch hout
  | succ n ih =>
      exact covers_inlineAll (fun line => covers_inlineLine hadds ih chain file line)
        (Text.splitAfterNewline source)

end Import

/-! ## Preprocessors -/

/-- A preprocessor whose result depends only on what it reports, as long as no file is added. -/
def Preprocessor.ReportsReads (preprocessor : Preprocessor) : Prop :=
  ∀ files source url wantsMap out, preprocessor files source url wantsMap = .ok out →
    files.Readable out.loaded ∧
      ∀ other : FileTree, other.AddsNoFile files → other.AgreesOn files out.loaded →
        preprocessor other source url wantsMap = .ok out

/-- A preprocessor that reports only paths that lead to files. -/
def Preprocessor.LoadsFiles (preprocessor : Preprocessor) : Prop :=
  ∀ files source url wantsMap out, preprocessor files source url wantsMap = .ok out →
    ∀ path ∈ out.loaded, files.isFile path = true

theorem Preprocessor.ReportsReads.loadsFiles {preprocessor : Preprocessor}
    (h : preprocessor.ReportsReads) : preprocessor.LoadsFiles := by
  intro files source url wantsMap out hout path hmem
  obtain ⟨text, htext⟩ := (h files source url wantsMap out hout).1 path hmem
  exact FileTree.isFile_of_readText htext

theorem inlineImports_eq_ok_iff {files : FileTree} {source : Text} {url : FilePath}
    {wantsMap : Bool} {out : Preprocessed} :
    inlineImports files source url wantsMap = .ok out ↔
      ∃ inlined, Import.inline files url source = .ok inlined ∧
        out = { css := inlined.css, loaded := inlined.loaded } := by
  unfold inlineImports
  cases Import.inline files url source with
  | error e => simp
  | ok inlined => simp [eq_comm]

/-- Inlining imports reports every file that it reads. -/
theorem reportsReads_inlineImports : Preprocessor.ReportsReads inlineImports := by
  intro files source url wantsMap out hout
  obtain ⟨inlined, hinlined, rfl⟩ := inlineImports_eq_ok_iff.mp hout
  have haddsSelf : files.AddsNoFile files := fun _ h => h
  have hread : files.Readable inlined.loaded :=
    (Import.covers_inlineWithin haddsSelf _ _ _ _ inlined hinlined).1
  refine ⟨hread, ?_⟩
  intro other hadds hagrees
  have hsame := (Import.covers_inlineWithin hadds _ _ _ _ inlined hinlined).2 hagrees
  exact inlineImports_eq_ok_iff.mpr ⟨inlined, hsame, rfl⟩

/-- Two trees with the same files, and with the same text at every path that inlining reports in one
of them, give the same stylesheet and the same report. -/
theorem inlineImports_eq_of_agreesOn_loaded {files other : FileTree} {source : Text}
    {url : FilePath} {wantsMap : Bool} {out : Preprocessed}
    (hfiles : ∀ path, other.isFile path = files.isFile path)
    (hout : inlineImports files source url wantsMap = .ok out)
    (htexts : other.AgreesOn files out.loaded) :
    inlineImports other source url wantsMap = .ok out := by
  have hadds : other.AddsNoFile files := fun path h => (hfiles path).symm.trans h
  exact (reportsReads_inlineImports files source url wantsMap out hout).2 other hadds htexts

/-- Stylesheets of which two import a third, with a neighbour that is not imported. -/
def diamondTree : FileTree where
  entries := [
    ([], ⟨1, 0, .directory⟩),
    (["b.scss".toList], ⟨2, 0, .file (Text.utf8 "@import 'c.scss';\n")⟩),
    (["_c.scss".toList], ⟨3, 0, .file (Text.utf8 "i \x7b\x7d")⟩),
    (["c.scss".toList], ⟨4, 0, .file (Text.utf8 "u \x7b\x7d")⟩)]
  workingNames := []
  nextInode := 5
  clock := 1

/-- A better place for an import does not count, and neither does a change there. -/
theorem inlineImports_diamondTree_rewritten :
    let other := diamondTree.edit (.write ⟨"_c.scss"⟩ (Text.utf8 "q \x7b\x7d") 9)
    let out : Preprocessed :=
      { css := "u \x7b\x7d\nu \x7b\x7d\n", loaded := [⟨"b.scss"⟩, ⟨"c.scss"⟩, ⟨"c.scss"⟩] }
    (∀ path, other.isFile path = diamondTree.isFile path) ∧
      inlineImports diamondTree "@import 'b', 'c';\n" ⟨"a.scss"⟩ true = .ok out ∧
      other.AgreesOn diamondTree out.loaded ∧
      inlineImports other "@import 'b', 'c';\n" ⟨"a.scss"⟩ true = .ok out := by
  intro other out
  have hwithin : other.Within diamondTree := FileTree.within_of_entries rfl (by decide)
  have hwithin' : diamondTree.Within other := FileTree.within_of_entries rfl (by decide)
  have hfiles : ∀ path, other.isFile path = diamondTree.isFile path := hwithin.isFile_eq hwithin'
  have hout : inlineImports diamondTree "@import 'b', 'c';\n" ⟨"a.scss"⟩ true = .ok out := by rfl
  have htexts : other.AgreesOn diamondTree out.loaded := by
    intro path hmem
    rcases List.mem_cons.mp hmem with rfl | hmem
    · rfl
    · rcases List.mem_cons.mp hmem with rfl | hmem
      · rfl
      · obtain rfl := List.mem_singleton.mp hmem
        rfl
  exact ⟨hfiles, hout, htexts, inlineImports_eq_of_agreesOn_loaded hfiles hout htexts⟩

/-! ## The pipeline -/

theorem mem_addPath {paths : List FilePath} {path d : FilePath} (h : d ∈ addPath paths path) :
    d ∈ paths ∨ d = path := by
  unfold addPath at h
  split at h
  · exact Or.inl h
  · rcases List.mem_append.mp h with h | h
    · exact Or.inl h
    · exact Or.inr (List.mem_singleton.mp h)

theorem mem_addPath_of_mem {paths : List FilePath} {path d : FilePath} (h : d ∈ paths) :
    d ∈ addPath paths path := by
  unfold addPath
  split
  · exact h
  · exact List.mem_append_left _ h

theorem exists_same_mem_addPath (paths : List FilePath) (path : FilePath) :
    ∃ d ∈ addPath paths path, d.Same path := by
  unfold addPath
  split
  · rename_i hany
    obtain ⟨known, hmem, hsame⟩ := List.any_eq_true.mp hany
    exact ⟨known, hmem, of_decide_eq_true hsame⟩
  · exact ⟨path, List.mem_append_right _ List.mem_cons_self, FilePath.Same.refl path⟩

theorem mem_foldl_addPath {loaded paths : List FilePath} {d : FilePath}
    (h : d ∈ loaded.foldl addPath paths) : d ∈ paths ∨ d ∈ loaded := by
  induction loaded generalizing paths with
  | nil => exact Or.inl h
  | cons path rest ih =>
      rcases ih h with h | h
      · rcases mem_addPath h with h | rfl
        · exact Or.inl h
        · exact Or.inr List.mem_cons_self
      · exact Or.inr (List.mem_cons_of_mem _ h)

theorem mem_foldl_addPath_of_mem {loaded paths : List FilePath} {d : FilePath} (h : d ∈ paths) :
    d ∈ loaded.foldl addPath paths := by
  induction loaded generalizing paths with
  | nil => exact h
  | cons path rest ih => exact ih (mem_addPath_of_mem h)

/-- Every loaded file is among the dependencies under one of its spellings. -/
theorem exists_same_mem_dependenciesOf {file path : FilePath} {loaded : List FilePath}
    (h : path ∈ loaded) : ∃ d ∈ dependenciesOf file loaded, d.Same path := by
  unfold dependenciesOf
  generalize [file] = paths
  induction loaded generalizing paths with
  | nil => cases h
  | cons first rest ih =>
      rcases List.mem_cons.mp h with rfl | h
      · obtain ⟨d, hmem, hsame⟩ := exists_same_mem_addPath paths path
        have hfold : d ∈ rest.foldl addPath (addPath paths path) := mem_foldl_addPath_of_mem hmem
        exact ⟨d, hfold, hsame⟩
      · exact ih h (addPath paths first)

theorem mem_dependenciesOf {file d : FilePath} {loaded : List FilePath}
    (h : d ∈ dependenciesOf file loaded) : d = file ∨ d ∈ loaded :=
  (mem_foldl_addPath h).imp_left List.mem_singleton.mp

/-- A dependency is the stylesheet itself or was reported by the preprocessor. -/
theorem StylePipeline.mem_dependencies_of_process {pipeline : StylePipeline} {files : FileTree}
    {source : Text} {request : StyleRequest} {processed : ProcessedStyle}
    (h : pipeline.process files source request = .ok processed) {d : FilePath}
    (hmem : d ∈ processed.dependencies) :
    d = request.file ∨ ∃ out,
      pipeline.preprocessor files source request.file request.sourceMap = .ok out ∧
        d ∈ out.loaded := by
  unfold StylePipeline.process StylePipeline.preprocess at h
  cases hkind : request.kind with
  | css =>
      simp only [hkind] at h
      split at h
      · cases h
      · cases h
        cases hmem
  | scss =>
      simp only [hkind] at h
      cases hpre : pipeline.preprocessor files source request.file request.sourceMap with
      | error e => simp [hpre] at h
      | ok out =>
          simp only [hpre] at h
          split at h
          · cases h
          · cases h
            exact (mem_dependenciesOf hmem).imp_right fun hloaded => ⟨out, rfl, hloaded⟩

/-- What the pipeline makes of a stylesheet depends, beside the stylesheet, only on the files that
were read, and each of those is a dependency. -/
theorem StylePipeline.process_dependence {pipeline : StylePipeline}
    (hreports : pipeline.preprocessor.ReportsReads) {files : FileTree} {source : Text}
    {request : StyleRequest} {processed : ProcessedStyle}
    (h : pipeline.process files source request = .ok processed) :
    ∃ read : List FilePath, files.Readable read ∧
      (∀ path ∈ read, ∃ d ∈ processed.dependencies, d.Same path) ∧
      (∀ d ∈ processed.dependencies, d = request.file ∨ d ∈ read) ∧
      ∀ other : FileTree, other.AddsNoFile files → other.AgreesOn files read →
        pipeline.process other source request = .ok processed := by
  unfold StylePipeline.process StylePipeline.preprocess at h ⊢
  cases hkind : request.kind with
  | css =>
      simp only [hkind] at h
      have hdependencies : processed.dependencies = [] := by
        split at h
        · cases h
        · cases h
          rfl
      refine ⟨[], fun path hmem => (nomatch hmem), fun path hmem => (nomatch hmem), ?_, ?_⟩
      · intro d hmem
        rw [hdependencies] at hmem
        cases hmem
      · exact fun other _ _ => h
  | scss =>
      simp only [hkind] at h
      cases hpre : pipeline.preprocessor files source request.file request.sourceMap with
      | error e => simp [hpre] at h
      | ok out =>
          simp only [hpre] at h
          obtain ⟨hread, hsame⟩ := hreports _ _ _ _ out hpre
          have hdependencies :
              processed.dependencies = dependenciesOf request.file out.loaded := by
            split at h
            · cases h
            · cases h
              rfl
          refine ⟨out.loaded, hread, ?_, ?_, ?_⟩
          · intro path hmem
            rw [hdependencies]
            exact exists_same_mem_dependenciesOf hmem
          · intro d hmem
            rw [hdependencies] at hmem
            exact mem_dependenciesOf hmem
          · intro other hadds hagrees
            simp only [hsame other hadds hagrees]
            exact h

end ComponentLoader
