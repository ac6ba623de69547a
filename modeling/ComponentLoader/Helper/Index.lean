import ComponentLoader.Diagnostic.Basic
import ComponentLoader.Helper.Exports
import ComponentLoader.OrderedMap
import ComponentLoader.Template.Fault
set_option autoImplicit false

/-!
# The helper index (SPEC §4.4)

Which file exports each helper.  Of several files that export a name the first one counts, and every
later one is worth a warning.
-/

namespace ComponentLoader

/-- The file that exports each helper, by name. -/
structure HelperIndex where
  symbols : OrderedMap Text FilePath
  deriving Repr, Inhabited

/-- An index with the warnings that arose while it was made. -/
structure HelperScan where
  index : HelperIndex
  warnings : List Diagnostic
  deriving Repr, Inhabited

namespace HelperIndex

/-- The index without helpers. -/
def empty : HelperIndex := ⟨.empty⟩

/-- The file that exports a helper. -/
def get? (index : HelperIndex) (name : Text) : Option FilePath :=
  index.symbols.get? name

/-- The index in which a helper is known, from this file unless it was known before: the first
definition wins (SPEC §4.4). -/
def add (index : HelperIndex) (name : Text) (file : FilePath) : HelperIndex :=
  match index.get? name with
  | some _ => index
  | none => ⟨index.symbols.insert name file⟩

/-- The warning about a helper that an earlier file exports. -/
def duplicateWarning (name : Text) (file first : FilePath) : Diagnostic where
  severity := .warning
  code := .duplicateHelper
  message := "helper `" ++ name ++ "` is already defined"
  file := some file
  notes := ["first defined in " ++ first.text]

end HelperIndex

namespace HelperScan

/-- Nothing scanned. -/
def empty : HelperScan := ⟨.empty, []⟩

/-- One more name that a file exports. -/
def addName (file : FilePath) (scan : HelperScan) (name : Text) : HelperScan :=
  match scan.index.get? name with
  | some first =>
    { scan with warnings := scan.warnings ++ [HelperIndex.duplicateWarning name file first] }
  | none => { scan with index := scan.index.add name file }

/-- One more file with the names that it exports. -/
def addFile (scan : HelperScan) (file : FilePath) (names : List Text) : HelperScan :=
  names.foldl (addName file) scan

end HelperScan

/-- The index of the helpers that some files export, in the order of the files. -/
def scanHelpers (exports : ExportReader) (files : FileTree) (paths : List FilePath) :
    Except TemplateError HelperScan :=
  paths.foldlM (fun scan path =>
    match files.readText path with
    | .error fault => .error (.unreadable path fault)
    | .ok script => .ok (scan.addFile path (exports script))) HelperScan.empty

end ComponentLoader
