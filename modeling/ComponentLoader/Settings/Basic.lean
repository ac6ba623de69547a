import ComponentLoader.Digest.Fingerprint
import ComponentLoader.FilePath.Basic
import ComponentLoader.Toml.Value
set_option autoImplicit false

/-!
# Options and settings (SPEC §6, §7.4)

`Options` are what a user says, with every field possibly unset; options can be laid over other
options with `merge`.  `Settings` are what a session works with: `Options.resolve` fills in the
defaults and refuses sets of template extensions that could not be told from stylesheets.
-/

namespace ComponentLoader

/-- How a selector is bound to the elements of one component. -/
inductive ScopeStrategy where
  /-- by a class named after the scope token -/
  | byClass
  /-- by an attribute named after the scope token -/
  | byAttribute
  deriving DecidableEq, Repr, Inhabited

/-! ## Options -/

/-- What a user says about stylesheets. -/
structure StyleOptions where
  preprocess : Option Bool := none
  bundle : Option Bool := none
  strategy : Option ScopeStrategy := none
  /-- the scope token for a path as seen from the root -/
  scope : Option (FilePath → Text) := none

/-- What a user says. -/
structure Options where
  root : Option FilePath := none
  template : Option Toml.Table := none
  templateExtensions : Option (List Text) := none
  helpers : Option (List FilePath) := none
  sourceMap : Option Bool := none
  /-- the component name for the path of a template -/
  componentName : Option (FilePath → Text) := none
  style : StyleOptions := {}

/-- Style options laid over others: what they set counts. -/
def StyleOptions.merge (base upper : StyleOptions) : StyleOptions where
  preprocess := upper.preprocess <|> base.preprocess
  bundle := upper.bundle <|> base.bundle
  strategy := upper.strategy <|> base.strategy
  scope := upper.scope <|> base.scope

/-- Options laid over others: what they set counts, field by field (SPEC §7.4). -/
def Options.merge (base upper : Options) : Options where
  root := upper.root <|> base.root
  template := upper.template <|> base.template
  templateExtensions := upper.templateExtensions <|> base.templateExtensions
  helpers := upper.helpers <|> base.helpers
  sourceMap := upper.sourceMap <|> base.sourceMap
  componentName := upper.componentName <|> base.componentName
  style := base.style.merge upper.style

/-! ## Settings -/

/-- How stylesheets are treated. -/
structure StyleSettings where
  preprocess : Bool
  bundle : Bool
  strategy : ScopeStrategy
  scope : Option (FilePath → Text)

/-- What a session works with. -/
structure Settings where
  root : FilePath
  template : Toml.Table
  templateExtensions : List Text
  helpers : List FilePath
  sourceMap : Bool
  componentName : FilePath → Text
  style : StyleSettings

/-- Why options are refused. -/
inductive SettingsError where
  | noTemplateExtension
  | emptyTemplateExtension
  | stylesheetExtension (extension : Text)
  deriving DecidableEq, Repr, Inhabited

/-- The wording of a refusal. -/
def SettingsError.message : SettingsError → Text
  | noTemplateExtension => "validation error: template_extensions must not be empty"
  | emptyTemplateExtension => "validation error: template_extensions contains an empty extension"
  | stylesheetExtension extension =>
    "validation error: '" ++ extension ++
      "' is a stylesheet extension and cannot be a template extension"

/-- Whether an extension is that of a stylesheet. -/
def isStylesheetExtension (extension : Text) : Bool :=
  extension = "css".toList || extension = "scss".toList

/-- An extension as it is compared: without dots in front, in lower case. -/
def normalizeExtension (extension : Text) : Text :=
  Text.asciiLower (extension.dropWhile (· = '.'))

/-- Why the first unusable extension of a list cannot be used. -/
def refuseExtension? : List Text → Option SettingsError
  | [] => none
  | extension :: rest =>
    if extension = [] then some .emptyTemplateExtension
    else if isStylesheetExtension extension then some (.stylesheetExtension extension)
    else refuseExtension? rest

/-- The template extensions that a list of them stands for. -/
def resolveExtensions (extensions : List Text) : Except SettingsError (List Text) :=
  let normalized := extensions.map normalizeExtension
  if normalized = [] then .error .noTemplateExtension
  else
    match refuseExtension? normalized with
    | some refusal => .error refusal
    | none => .ok normalized

/-- The settings that options stand for. -/
def Options.resolve (options : Options) : Except SettingsError Settings := do
  let root := options.root.getD ⟨"."⟩
  let templateExtensions ← resolveExtensions (options.templateExtensions.getD ["html"])
  return {
    root := root
    template := options.template.getD []
    templateExtensions := templateExtensions
    helpers := (options.helpers.getD []).map root.join
    sourceMap := options.sourceMap.getD true
    componentName := options.componentName.getD Naming.componentName
    style := {
      preprocess := options.style.preprocess.getD true
      bundle := options.style.bundle.getD true
      strategy := options.style.strategy.getD .byClass
      scope := options.style.scope } }

namespace Settings

/-- Whether files with an extension are templates. -/
def isTemplateExtension (settings : Settings) (extension : Text) : Bool :=
  settings.templateExtensions.contains extension

/-- Whether a path is that of a template. -/
def isTemplate (settings : Settings) (path : FilePath) : Bool :=
  match path.kind? with
  | some extension => settings.isTemplateExtension extension
  | none => false

end Settings

/-- Of the extensions that are kept, none is empty and none is that of a stylesheet. -/
theorem refuseExtension?_eq_none_iff {extensions : List Text} :
    refuseExtension? extensions = none ↔
      ∀ e ∈ extensions, e ≠ [] ∧ isStylesheetExtension e = false := by
  induction extensions with
  | nil => simp [refuseExtension?]
  | cons e rest ih =>
    by_cases he : e = []
    · simp [refuseExtension?, he]
    · by_cases hs : isStylesheetExtension e = true
      · simp [refuseExtension?, he, hs]
      · simp [refuseExtension?, he, hs, ih]

end ComponentLoader
