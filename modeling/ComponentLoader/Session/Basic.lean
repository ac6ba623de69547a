import ComponentLoader.Cache.Entry
import ComponentLoader.Module.Request
import ComponentLoader.Style.Pipeline
set_option autoImplicit false

/-!
# Sessions (SPEC §4.5)

A session is what is kept between requests: entries of templates and stylesheets, the identities of
this pass, the helper index, the diagnostics that belong to no single result, and counts.  It
belongs to a `Project`, which says what is asked for and with which tools, and does not change.
-/

namespace ComponentLoader

/-! ## Projects -/

/-- The tools of a project. -/
structure Toolchain where
  parser : TemplateParser
  pipeline : StylePipeline
  exports : ExportReader

/-- The tools that read markup, inline imports, mark selectors and find exports. -/
def Toolchain.standard : Toolchain where
  parser := parseMarkup
  pipeline := .standard
  exports := exportNames

/-- The settings and the tools that all requests of a session share. -/
structure Project where
  settings : Settings
  toolchain : Toolchain

/-- The settings with a root that does not depend on the working directory. -/
def Settings.rootedIn (settings : Settings) (workingDirectory : FilePath) : Settings :=
  { settings with root := workingDirectory.join settings.root }

/-- The project of some settings in a working directory. -/
def Project.ofSettings (settings : Settings) (toolchain : Toolchain) (workingDirectory : FilePath) :
    Project :=
  ⟨settings.rootedIn workingDirectory, toolchain⟩

/-! ## Results -/

/-- How the contents of a module are to be read. -/
inductive Loader where
  | script
  | typedScript
  | style
  deriving DecidableEq, Repr, Inhabited

namespace Loader

/-- The short name of a loader. -/
def text : Loader → Text
  | script => "js"
  | typedScript => "ts"
  | style => "css"

/-- The loader for scripts of a language. -/
def ofScriptLang (lang : Text) : Loader :=
  if lang = "ts".toList ∨ lang = "tsx".toList then typedScript else script

end Loader

/-- A module as it is handed to the bundler. -/
structure LoadedModule where
  contents : Text
  loader : Loader
  diagnostics : List Diagnostic := []
  /-- the files whose changes make the module stale -/
  watchFiles : List FilePath := []
  deriving DecidableEq, Repr, Inhabited

/-- Why a request fails. -/
inductive LoadError where
  | invalidId (e : ModuleIdError)
  | identity (e : IdentityError)
  | style (e : StyleError)
  | template (e : TemplateError)
  /-- a part of a template was asked for before the template -/
  | missingTemplate (path : FilePath)
  deriving DecidableEq, Repr, Inhabited

/-- The wording of an error. -/
def LoadError.message : LoadError → Text
  | invalidId e => "invalid module id: " ++ e.message
  | identity e => e.message
  | style e => e.message
  | template e => e.message
  | missingTemplate path => "template " ++ path.text ++ " has not been loaded"

/-! ## Sessions -/

/-- How often each tool was run. -/
structure ToolRuns where
  parser : Nat := 0
  pipeline : Nat := 0
  preprocessor : Nat := 0
  scoper : Nat := 0
  deriving DecidableEq, Repr, Inhabited

/-- What is kept between requests. -/
structure Session where
  identities : IdentityMemo := .empty
  /-- the entries of templates by path -/
  templates : OrderedMap Text TemplateEntry := .empty
  /-- the entries of stylesheets by id -/
  stylesheets : OrderedMap Text CacheEntry := .empty
  helpers : HelperIndex := .empty
  sink : DiagnosticSink := .empty
  counts : CacheCounts := {}
  runs : ToolRuns := {}
  deriving Repr, Inhabited

/-- A session in which nothing has been asked for. -/
def Session.fresh : Session := {}

/-- A step of a session that can fail; what it had done to the session before it failed stays. -/
abbrev SessionM : Type → Type :=
  EStateM LoadError Session

end ComponentLoader
