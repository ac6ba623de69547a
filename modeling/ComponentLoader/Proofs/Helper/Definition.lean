import ComponentLoader.Helper.Index
import ComponentLoader.Proofs.OrderedMap
import ComponentLoader.Proofs.Style.Dependence
import Mathlib.Data.List.Basic
import Mathlib.Data.List.Induction
set_option autoImplicit false

/-!
# Definitions of helpers (SPEC §4.4)

Some files define helpers, file by file and name by name.  Of the definitions of one name the first
one counts, and each of the others is worth a warning.  A scan goes through the definitions once and
carries the index along; `HasScanned` says what index and warnings are after the definitions so far,
and one step of the scan adds one definition to them.

Nothing is asked of the reader of exports: where it reports a name twice for one file, the second
time is a later definition like any other.
-/

namespace ComponentLoader

/-- A file exports a name. -/
structure HelperDefinition where
  file : FilePath
  name : Text

namespace HelperDefinition

/-- The names that the file at a path exports; none if it cannot be read. -/
def namesIn (exports : ExportReader) (files : FileTree) (path : FilePath) : List Text :=
  match files.readText path with
  | .ok script => exports script
  | .error _ => []

/-- What some files define, in the order of the files. -/
def ofFiles (exports : ExportReader) (files : FileTree) (paths : List FilePath) :
    List HelperDefinition :=
  paths.flatMap fun path => (namesIn exports files path).map (mk path)

/-- The file of the first definition of a name. -/
def firstFile? (definitions : List HelperDefinition) (name : Text) : Option FilePath :=
  (definitions.find? fun definition => definition.name = name).map file

/-- What is said of a definition whose name is taken: it names the file of the definition and has
the file of the first one in a note. -/
def laterWarning (definition : HelperDefinition) (first : FilePath) : Diagnostic where
  severity := .warning
  code := ⟨.warning, 3⟩
  message := "helper `" ++ definition.name ++ "` is already defined"
  file := some definition.file
  location := none
  notes := ["first defined in " ++ first.text]

theorem duplicateWarning_eq (definition : HelperDefinition) (first : FilePath) :
    HelperIndex.duplicateWarning definition.name definition.file first =
      laterWarning definition first :=
  rfl

/-- The warning about a definition, if one of those before it is of the same name. -/
def warning? (before : List HelperDefinition) (definition : HelperDefinition) : Option Diagnostic :=
  (firstFile? before definition.name).map (laterWarning definition)

/-- The warnings about definitions, in their order. -/
def warnings (definitions : List HelperDefinition) : List Diagnostic :=
  definitions.zipIdx.filterMap fun (definition, position) =>
    warning? (definitions.take position) definition

theorem firstFile?_append (definitions more : List HelperDefinition) (name : Text) :
    firstFile? (definitions ++ more) name =
      (firstFile? definitions name).or (firstFile? more name) := by
  unfold firstFile?
  rw [List.find?_append, Option.map_or]

/-- One file has the first definition of every name that it exports. -/
theorem firstFile?_map_mk (path : FilePath) (names : List Text) (name : Text) :
    firstFile? (names.map (mk path)) name = if name ∈ names then some path else none := by
  induction names with
  | nil => rfl
  | cons first rest ih =>
      rw [List.map_cons, ← List.singleton_append, firstFile?_append, ih]
      by_cases hname : first = name
      · simp [firstFile?, hname]
      · have hne : name ≠ first := fun heq => hname heq.symm
        simp [firstFile?, hname, hne]

theorem code_of_mem_warnings {definitions : List HelperDefinition} {warning : Diagnostic}
    (h : warning ∈ warnings definitions) :
    warning.severity = .warning ∧ warning.code.text = "W003" := by
  obtain ⟨⟨definition, position⟩, -, hwarning⟩ := List.mem_filterMap.mp h
  obtain ⟨first, -, rfl⟩ := Option.map_eq_some_iff.mp hwarning
  have hcode : DiagnosticCode.text ⟨.warning, 3⟩ = "W003" := by decide
  exact ⟨rfl, hcode⟩

/-- Of some files, the first one that exports a name has its first definition. -/
theorem firstFile?_ofFiles (exports : ExportReader) (files : FileTree) (paths : List FilePath)
    (name : Text) :
    firstFile? (ofFiles exports files paths) name =
      paths.find? fun path => name ∈ namesIn exports files path := by
  induction paths with
  | nil => rfl
  | cons path rest ih =>
      have hcons : ofFiles exports files (path :: rest) =
          (namesIn exports files path).map (mk path) ++ ofFiles exports files rest := rfl
      rw [hcons, firstFile?_append, firstFile?_map_mk, ih, List.find?_cons]
      by_cases hmem : name ∈ namesIn exports files path <;> simp [hmem]

/-! ## One more definition -/

theorem firstFile?_concat (definitions : List HelperDefinition) (file : FilePath)
    (defined name : Text) :
    firstFile? (definitions ++ [mk file defined]) name =
      (firstFile? definitions name).or (if name = defined then some file else none) := by
  have hlast := firstFile?_map_mk file [defined] name
  rw [List.map_singleton] at hlast
  simp only [firstFile?_append, hlast, List.mem_singleton]

theorem warnings_concat (definitions : List HelperDefinition) (definition : HelperDefinition) :
    warnings (definitions ++ [definition]) =
      warnings definitions ++ (warning? definitions definition).toList := by
  -- what stands before an old definition is what stood before it
  have hold : ∀ entry ∈ definitions.zipIdx,
      warning? ((definitions ++ [definition]).take entry.2) entry.1 =
        warning? (definitions.take entry.2) entry.1 := by
    intro entry hmem
    have hlt := List.snd_lt_of_mem_zipIdx hmem
    rw [List.take_append_of_le_length (by omega)]
  unfold warnings
  rw [List.zipIdx_append, List.filterMap_append, List.filterMap_congr hold]
  cases hwarning : warning? definitions definition with
  | none => simp [hwarning]
  | some warning => simp [hwarning]

end HelperDefinition

/-! ## Scanning -/

open HelperDefinition

namespace HelperScan

/-- The scan has gone through these definitions: it knows the file of the first one of each name, in
the order of the names, and it has the warnings about the others. -/
structure HasScanned (scan : HelperScan) (definitions : List HelperDefinition) : Prop where
  index : ∀ name, scan.index.get? name = firstFile? definitions name
  sorted : scan.index.symbols.Sorted
  warnings : scan.warnings = HelperDefinition.warnings definitions

theorem hasScanned_empty : empty.HasScanned [] where
  index _ := rfl
  sorted := OrderedMap.sorted_empty
  warnings := rfl

theorem HasScanned.addName {scan : HelperScan} {definitions : List HelperDefinition}
    (h : scan.HasScanned definitions) (file : FilePath) (name : Text) :
    (scan.addName file name).HasScanned (definitions ++ [⟨file, name⟩]) := by
  have hwarnings := warnings_concat definitions ⟨file, name⟩
  unfold HelperDefinition.warning? at hwarnings
  simp only [← h.index, ← h.warnings] at hwarnings
  unfold HelperScan.addName HelperIndex.add
  cases hfirst : scan.index.get? name with
  | some first =>
      rw [hfirst, Option.map_some, ← duplicateWarning_eq] at hwarnings
      refine ⟨fun other => ?_, h.sorted, hwarnings.symm⟩
      rw [firstFile?_concat, ← h.index]
      by_cases hother : other = name
      · rw [hother, hfirst]
        rfl
      · rw [if_neg hother, Option.or_none]
  | none =>
      rw [hfirst] at hwarnings
      refine ⟨fun other => ?_, h.sorted.insert name file, ?_⟩
      · rw [firstFile?_concat, ← h.index]
        show (scan.index.symbols.insert name file).get? other = _
        rw [OrderedMap.get?_insert]
        by_cases hother : other = name
        · rw [hother, hfirst, if_pos Std.ReflCmp.compare_self, if_pos rfl]
          rfl
        · rw [if_neg hother, if_neg fun heq => hother (Std.LawfulEqOrd.eq_of_compare heq),
            Option.or_none]
          rfl
      · simpa using hwarnings.symm

theorem HasScanned.addFile {scan : HelperScan} {definitions : List HelperDefinition}
    (h : scan.HasScanned definitions) (file : FilePath) (names : List Text) :
    (scan.addFile file names).HasScanned (definitions ++ names.map (HelperDefinition.mk file)) := by
  unfold HelperScan.addFile
  induction names generalizing scan definitions with
  | nil => simpa using h
  | cons name rest ih =>
      rw [List.foldl_cons, List.map_cons, List.append_cons]
      exact ih (h.addName file name)

end HelperScan

section

variable (exports : ExportReader) {files : FileTree}

/-- Files that can be read are scanned to what they define.  The induction takes the last file away,
so that what was scanned before it is known. -/
theorem scanHelpers_of_readable {paths : List FilePath} (h : files.Readable paths) :
    ∃ scan, scanHelpers exports files paths = .ok scan ∧
      scan.HasScanned (ofFiles exports files paths) := by
  induction paths using List.reverseRecOn with
  | nil => exact ⟨.empty, rfl, HelperScan.hasScanned_empty⟩
  | append_singleton front path ih =>
      obtain ⟨hfront, hpath⟩ := List.forall_mem_append.mp h
      obtain ⟨script, hscript⟩ := hpath path List.mem_cons_self
      obtain ⟨scan, hscan, hscanned⟩ := ih hfront
      have hnames : namesIn exports files path = exports script := by
        rw [namesIn, hscript]
      refine ⟨scan.addFile path (exports script), ?_, ?_⟩
      · unfold scanHelpers at hscan ⊢
        rw [List.foldlM_append, hscan]
        simp only [List.foldlM_cons, List.foldlM_nil, hscript, bind, Except.bind, pure, Except.pure]
      · have hdefinitions : ofFiles exports files (front ++ [path]) =
            ofFiles exports files front ++ (exports script).map (mk path) := by
          simp [ofFiles, hnames]
        rw [hdefinitions]
        exact hscanned.addFile path (exports script)

/-- The first file that cannot be read ends the scan. -/
theorem scanHelpers_of_unreadable {before : List FilePath} {path : FilePath} {fault : IoFault}
    (hbefore : files.Readable before) (hpath : files.readText path = .error fault)
    (after : List FilePath) :
    scanHelpers exports files (before ++ path :: after) = .error (.unreadable path fault) := by
  obtain ⟨scan, hscan, -⟩ := scanHelpers_of_readable exports hbefore
  unfold scanHelpers at hscan ⊢
  rw [List.foldlM_append, hscan]
  simp only [List.foldlM_cons, hpath, bind, Except.bind]

end

end ComponentLoader
