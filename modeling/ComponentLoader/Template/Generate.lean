import ComponentLoader.OrderedMap
import ComponentLoader.Template.Fault
import ComponentLoader.Template.Parsed
import ComponentLoader.Template.Statement
import ComponentLoader.Text.Alphanumeric
import ComponentLoader.Text.Space
import ComponentLoader.Toml.Value
set_option autoImplicit false

/-!
# Generating modules (SPEC §4.4)

The module of a parsed template loads its external scripts, takes the helpers that its markup calls,
and exports the markup together with the name and the scope token of the component.
-/

namespace ComponentLoader

/-- The one format in which modules are written. -/
def moduleFormat : Text := "esm"

/-- What a module is made from beside the parsed template. -/
structure ModuleConfig where
  file : FilePath
  format : Text := moduleFormat
  scope : Text
  componentName : Text
  /-- the file that exports each helper -/
  helpers : OrderedMap Text FilePath
  /-- options of the user about templates -/
  options : Toml.Table

namespace Generate

/-! ## Markup -/

/-- The option that says how blanks in the markup are treated. -/
def whitespaceOption : Text := "whitespace"

/-- The value of that option for which every run of blanks becomes one blank. -/
def condenseValue : Text := "condense"

/-- Whether the options ask for runs of blanks to become one blank. -/
def condenses (options : Toml.Table) : Bool :=
  match options.lookup whitespaceOption with
  | some (.string value) => value = condenseValue
  | _ => false

/-- The markup as it is exported: without the blanks around it, or with single blanks only. -/
def exportedMarkup (options : Toml.Table) (body : Text) : Text :=
  if condenses options then Text.join " " (Text.words body) else Text.trim body

/-! ## Helpers -/

/-- Whether a call can begin after a character: one that belongs to a name, or a dot, makes what
follows another name. -/
def startsCall (previous : Option Char) : Bool :=
  match previous with
  | none => true
  | some c => !(Text.isAlphanumeric c || c = '_' || c = '$' || c = '.')

/-- Whether a call stands in a text after the character `previous`.  The occurrences of `pattern`
are found from the left, and `skip` characters still belong to the last one. -/
def callsFrom (pattern : Text) : (skip : Nat) → (previous : Option Char) → (text : Text) → Bool
  | _, _, [] => false
  | skip + 1, _, c :: rest => callsFrom pattern skip (some c) rest
  | 0, previous, c :: rest =>
    if pattern.isPrefixOf (c :: rest) then
      startsCall previous || callsFrom pattern (pattern.length - 1) (some c) rest
    else callsFrom pattern 0 (some c) rest

/-- Whether some markup calls a helper. -/
def calls (markup name : Text) : Bool :=
  callsFrom (name ++ ['(']) 0 none markup

/-- A path as it is written in a module, with slashes only. -/
def moduleSpelling (path : FilePath) : Text :=
  path.text.map fun c => if c = '\\' then '/' else c

/-! ## Statements -/

/-- The statements that load the external scripts. -/
def scriptStatements (scripts : List ResourceNode) : List Statement :=
  scripts.filterMap fun node => node.href.map .effect

/-- The statements that take the helpers that some markup calls, in the order of their names. -/
def helperStatements (helpers : OrderedMap Text FilePath) (markup : Text) : List Statement :=
  (helpers.entries.filter fun (name, _) => calls markup name).map fun (name, path) =>
    .helper name (moduleSpelling path)

/-- The statements of the module of a parsed template. -/
def statements (config : ModuleConfig) (parsed : ParsedTemplate) : List Statement :=
  let markup := exportedMarkup config.options parsed.body
  scriptStatements parsed.scripts ++ helperStatements config.helpers markup ++
    [.template markup, .componentName config.componentName, .scopeToken config.scope, .component]

end Generate

/-- The code of the module of a parsed template. -/
def generate (config : ModuleConfig) (parsed : ParsedTemplate) : Except TemplateError Text :=
  if config.format = moduleFormat then .ok (Statement.code (Generate.statements config parsed))
  else .error (.generate config.file (.unsupportedFormat config.format))

end ComponentLoader
