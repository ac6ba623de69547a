import ComponentLoader.Diagnostic.Basic
import ComponentLoader.Helper.Index
import ComponentLoader.Module.Id
import ComponentLoader.Settings.Basic
import ComponentLoader.Template.Generate
set_option autoImplicit false

/-!
# Compiling templates (SPEC §4.4)

The module of a template begins with a header that loads its own inline resources and its external
stylesheets through their ids, so that a bundler asks for them again.  The resources are kept beside
the code, in the order of their elements, to answer those requests.
-/

namespace ComponentLoader

/-- A script or a stylesheet of a compiled template. -/
structure Resource where
  /-- the id under which it is asked for, or where it is outside the template -/
  url : Text
  /-- its text, if it is inside the template -/
  content : Option Text
  lang : Text
  deriving DecidableEq, Repr, Inhabited

/-- The text of a resource inside the template; an empty element has none. -/
def Resource.text? (resource : Resource) : Option Text :=
  match resource.content with
  | some (c :: rest) => some (c :: rest)
  | _ => none

/-- A compiled template. -/
structure CompiledTemplate where
  source : Text
  code : Text
  diagnostics : List Diagnostic
  scripts : List Resource
  styles : List Resource
  deriving Repr, Inhabited

namespace Compile

/-- The scope token of a template: what the user's hook makes of its path as seen from the root, or
else the token made from that path. -/
def scopeToken (settings : Settings) (file : FilePath) : Text :=
  let seed := Naming.scopeSeed settings.root file
  match settings.style.scope with
  | some hook => hook ⟨seed⟩
  | none => Naming.scopeToken seed

/-- The diagnostic for a warning of the parser, if its offset is a place in the source. -/
def diagnose? (file : FilePath) (source : Text) (warning : TemplateWarning) : Option Diagnostic :=
  (source.locate warning.offset).map fun location =>
    { severity := .warning
      code := .templateWarning
      message := warning.message
      file := some file
      location := some location }

/-! ## Resources -/

/-- The id of an inline script. -/
def scriptId (file : FilePath) (index : Nat) : Text :=
  ModuleId.text ⟨file, some (.script (.ofNat index))⟩

/-- The id of an inline stylesheet. -/
def styleId (file : FilePath) (scope : Text) (index : Nat) : Text :=
  ModuleId.text ⟨file, some (.stylesheet (some scope) (some (.ofNat index)))⟩

/-- The id of a stylesheet outside the template. -/
def externalStyleId (href scope : Text) : Text :=
  ModuleId.text ⟨⟨href⟩, some (.stylesheet (some scope) none)⟩

/-- The script with a number as a resource. -/
def scriptResource (file : FilePath) (node : ResourceNode) (index : Nat) : Resource :=
  match node.href with
  | some href => ⟨href, none, node.lang⟩
  | none => ⟨scriptId file index, if node.content = some [] then none else node.content, node.lang⟩

/-- The stylesheet with a number as a resource. -/
def styleResource (file : FilePath) (scope : Text) (node : ResourceNode) (index : Nat) : Resource :=
  match node.href with
  | some href => ⟨externalStyleId href scope, none, node.lang⟩
  | none => ⟨styleId file scope index, node.content, node.lang⟩

/-- The scripts of a template as resources. -/
def scriptResources (file : FilePath) (nodes : List ResourceNode) : List Resource :=
  nodes.mapIdx fun index node => scriptResource file node index

/-- The stylesheets of a template as resources. -/
def styleResources (file : FilePath) (scope : Text) (nodes : List ResourceNode) : List Resource :=
  nodes.mapIdx fun index node => styleResource file scope node index

/-! ## The header -/

/-- The statement that loads the script with a number: none for one outside the template, and none
for an empty element. -/
def scriptStatement? (file : FilePath) (node : ResourceNode) (index : Nat) : Option Statement :=
  if node.isInline && node.content != some [] then some (.reexport (scriptId file index)) else none

/-- The statements that load the inline scripts. -/
def scriptHeader (file : FilePath) (nodes : List ResourceNode) : List Statement :=
  (nodes.mapIdx fun index node => scriptStatement? file node index).filterMap id

/-- The statements that load the stylesheets. -/
def styleHeader (styles : List Resource) : List Statement :=
  styles.map fun style => .effect style.url

/-! ## Templates -/

/-- What the module of a template is made from. -/
def moduleConfig (settings : Settings) (helpers : HelperIndex) (file : FilePath) :
    ModuleConfig where
  file := file
  scope := scopeToken settings file
  componentName := settings.componentName file
  helpers := helpers.symbols
  options := settings.template

/-- The statements of the module of a template. -/
def statements (settings : Settings) (helpers : HelperIndex) (file : FilePath)
    (parsed : ParsedTemplate) : List Statement :=
  let styles := styleResources file (scopeToken settings file) parsed.stylesheets
  scriptHeader file parsed.scripts ++ (if settings.style.bundle then styleHeader styles else []) ++
    Generate.statements (moduleConfig settings helpers file) parsed

/-- A parsed template with its source, compiled. -/
def ofParsed (settings : Settings) (helpers : HelperIndex) (file : FilePath) (source : Text)
    (warnings : List TemplateWarning) (parsed : ParsedTemplate) : CompiledTemplate where
  source := source
  code := Statement.code (statements settings helpers file parsed)
  diagnostics := warnings.filterMap (diagnose? file source)
  scripts := scriptResources file parsed.scripts
  styles := styleResources file (scopeToken settings file) parsed.stylesheets

/-- The source of a template, compiled. -/
def ofSource (parser : TemplateParser) (settings : Settings) (helpers : HelperIndex)
    (file : FilePath) (source : Text) : Except TemplateError CompiledTemplate :=
  let reading := parser source
  match reading.result with
  | .error fault => .error (.ofMarkup file source fault)
  | .ok parsed => .ok (ofParsed settings helpers file source reading.warnings parsed)

end Compile

/-- The template at a path, compiled. -/
def compile (parser : TemplateParser) (settings : Settings) (helpers : HelperIndex)
    (files : FileTree) (file : FilePath) : Except TemplateError CompiledTemplate :=
  match files.readText file with
  | .error fault => .error (.unreadable file fault)
  | .ok source => Compile.ofSource parser settings helpers file source

end ComponentLoader
