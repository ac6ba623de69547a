import ComponentLoader.FileTree.Basic
import ComponentLoader.Settings.Basic
import ComponentLoader.Toml.Document
import ComponentLoader.Toml.Wrapped
set_option autoImplicit false

/-!
# Configuration files (SPEC §7.4)

Options can be kept in a TOML file, which is looked for in a directory and the directories above it.
Its keys are the fields of `Options`; a key without a field and a value of another kind make the
file unusable.  A root that the file names is relative to the directory of the file, which is the
root itself where the file names none.
-/

namespace ComponentLoader

/-- Why a configuration file gives no options. -/
inductive ConfigError where
  | unreadable (fault : IoFault)
  /-- the text is no TOML document, or not one of options -/
  | malformed
  | notFound
  deriving DecidableEq, Repr, Inhabited

/-- The name of a configuration file. -/
def configFileName : Text := "kiln.toml"

/-- The wording of an error. -/
def ConfigError.message : ConfigError → Text
  | unreadable fault => "failed to read configuration: " ++ fault.message
  | malformed => "failed to parse configuration: not a document of options"
  | notFound => "could not find " ++ configFileName ++ " in the given directory or any parent"

/-! ## Options in a document -/

/-- The strategy that a value names: the name alone, or as the only key of a table, over an empty
table or an empty array. -/
def ScopeStrategy.ofValue? (value : Toml.Value) : Option ScopeStrategy :=
  let name? : Option Text :=
    match value with
    | .string name => some name
    | .table [(name, .table [])] => some name
    | .table [(name, .array [])] => some name
    | _ => none
  name?.bind fun name =>
    if name = "class".toList then some .byClass
    else if name = "attribute".toList then some .byAttribute
    else none

/-- Style options with one more key. -/
def StyleOptions.set? (options : StyleOptions) (key : Text) (value : Toml.Value) :
    Option StyleOptions :=
  if key = "preprocess".toList then
    value.bool?.map fun flag => { options with preprocess := some flag }
  else if key = "bundle".toList then
    value.bool?.map fun flag => { options with bundle := some flag }
  else if key = "strategy".toList then
    (ScopeStrategy.ofValue? value).map fun strategy => { options with strategy := some strategy }
  else none

/-- The style options that a value holds: a table, or their values in the order of the fields. -/
def StyleOptions.ofValue? : Toml.Value → Option StyleOptions
  | .table entries => entries.foldlM (fun options (key, value) => options.set? key value) {}
  | .array (preprocess :: bundle :: strategy :: _) => do
    let options ← StyleOptions.set? {} "preprocess" preprocess
    let options ← options.set? "bundle" bundle
    options.set? "strategy" strategy
  | _ => none

/-- Options with one more key. -/
def Options.set? (options : Options) (key : Text) (value : Toml.Value) : Option Options :=
  if key = "root".toList then
    value.text?.map fun text => { options with root := some ⟨text⟩ }
  else if key = "template".toList then
    (Toml.tableOf? value).map fun table => { options with template := some table }
  else if key = "template_extensions".toList then
    value.texts?.map fun texts => { options with templateExtensions := some texts }
  else if key = "helpers".toList then
    value.texts?.map fun texts => { options with helpers := some (texts.map FilePath.mk) }
  else if key = "source_map".toList then
    value.bool?.map fun flag => { options with sourceMap := some flag }
  else if key = "css".toList then
    (StyleOptions.ofValue? value).map fun style => { options with style := style }
  else none

/-- The options that a table holds. -/
def Options.ofTable? (table : Toml.Table) : Option Options :=
  table.foldlM (fun options (key, value) => options.set? key value) {}

/-- The options that a document holds. -/
def Options.parse? (document : Text) : Option Options :=
  (Toml.parse? document).bind Options.ofTable?

/-! ## Files -/

/-- The path and the directories above it, the nearest first. -/
def FilePath.ancestors (path : FilePath) : List FilePath :=
  match _h : path.parent? with
  | none => [path]
  | some parent => path :: parent.ancestors
termination_by path.text.length
decreasing_by exact FilePath.length_parent?_lt _h

/-- The configuration file that is in force in a directory: its own or the nearest above. -/
def findConfig (files : FileTree) (start : FilePath) : Except ConfigError FilePath :=
  let candidates := start.ancestors.map fun directory => directory.join ⟨configFileName⟩
  match candidates.find? files.isFile with
  | some path => .ok path
  | none => .error .notFound

/-- The options that a configuration file holds, with the root that they are about. -/
def loadOptions (files : FileTree) (path : FilePath) : Except ConfigError Options :=
  match files.readText path with
  | .error fault => .error (.unreadable fault)
  | .ok document =>
    match Options.parse? document with
    | none => .error .malformed
    | some options =>
      let base := path.directory
      .ok { options with
        root := some (match options.root with
          | some root => base.join root
          | none => base) }

end ComponentLoader
