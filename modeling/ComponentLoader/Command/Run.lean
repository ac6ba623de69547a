import ComponentLoader.Command.Load
import ComponentLoader.Template.Statement
set_option autoImplicit false

/-!
# Running a command line (SPEC §7.5)

From the arguments and the files to an outcome.

A build loads templates, and after each template the modules that its header loads, as a bundler
does.  Several passes use the same session, so a pass over files that did not change takes
everything from what was kept.
-/

namespace ComponentLoader.Command

/-! ## One template -/

/-- What came of a template and of the modules that its header loads. -/
structure GraphLoad where
  /-- how many modules there were; none if one of them failed -/
  result : Except LoadError Nat
  /-- the diagnostics of the modules before the failure -/
  diagnostics : List Diagnostic
  deriving Repr, Inhabited

/-- One more module before those that were counted. -/
def GraphLoad.withModule (graph : GraphLoad) (loaded : LoadedModule) : GraphLoad where
  result := graph.result.map (· + 1)
  diagnostics := loaded.diagnostics ++ graph.diagnostics

/-- Loads the modules with some ids up to the first failure. -/
def loadModules (project : Project) (files : FileTree) :
    List Text → Session → GraphLoad × Session
  | [], session => (⟨.ok 0, []⟩, session)
  | id :: rest, session =>
    match attempt (Session.load project files id) session with
    | (.error e, session) => (⟨.error e, []⟩, session)
    | (.ok none, session) => loadModules project files rest session
    | (.ok (some loaded), session) =>
      let (graph, session) := loadModules project files rest session
      (graph.withModule loaded, session)

/-- The ids of the modules that the code of a template loads, as they are asked for. -/
def headerIds (template : FilePath) (code : Text) : List Text :=
  (Header.specifiers code).map (Header.resolve template)

/-- Loads a template and the modules that its header loads. -/
def loadGraph (project : Project) (files : FileTree) (template : FilePath) (session : Session) :
    GraphLoad × Session :=
  match attempt (Session.load project files template.text) session with
  | (.error e, session) => (⟨.error e, []⟩, session)
  | (.ok none, session) => (⟨.ok 0, []⟩, session)
  | (.ok (some loaded), session) =>
    let ids := if loaded.loader = .script then headerIds template loaded.contents else []
    let (graph, session) := loadModules project files ids session
    (graph.withModule loaded, session)

/-! ## One pass -/

/-- The files that a build is about: those that are templates, as normal absolute paths. -/
def templateFiles (project : Project) (workingDirectory : FilePath) (names : List Text) :
    List FilePath :=
  (names.map fun name => (workingDirectory.join ⟨name⟩).normalize).filter
    project.settings.isTemplate

/-- What a pass came to. -/
structure PassResult where
  modules : Nat := 0
  failures : Nat := 0
  diagnostics : List Diagnostic := []
  deriving Repr, Inhabited

/-- The diagnostic for a template that could not be loaded. -/
def loadFailure (template : FilePath) (e : LoadError) : Diagnostic where
  severity := .error
  code := .loadFailed
  message := e.message
  file := some template

/-- A pass with one more template. -/
def PassResult.add (pass : PassResult) (template : FilePath) (graph : GraphLoad) : PassResult :=
  match graph.result with
  | .ok modules =>
    { pass with
      modules := pass.modules + modules
      diagnostics := pass.diagnostics ++ graph.diagnostics }
  | .error e =>
    { pass with
      failures := pass.failures + 1
      diagnostics := pass.diagnostics ++ graph.diagnostics ++ [loadFailure template e] }

/-- Loads some templates with what their headers load. -/
def loadGraphs (project : Project) (files : FileTree) (templates : List FilePath)
    (session : Session) : PassResult × Session :=
  templates.foldl (fun (pass, session) template =>
    let (graph, session) := loadGraph project files template session
    (pass.add template graph, session)) ({}, session)

/-- A number as text. -/
def count (n : Nat) : Text :=
  Text.decimal n

/-- The line at the beginning of a pass. -/
def startLine (pass passes templates : Nat) : Text :=
  "   Building pass " ++ count pass ++ "/" ++ count passes ++ " (" ++ count templates ++
    " template(s))"

/-- The line at the end of a pass. -/
def finishLine (pass : Nat) (result : PassResult) (counts : CacheCounts) : Text :=
  let warnings := (result.diagnostics.filter fun d => d.severity = .warning).length
  "   Finished pass " ++ count pass ++ ": " ++ count result.modules ++ " module(s), " ++
    count counts.hits.toNat ++ " hit(s), " ++ count counts.misses.toNat ++ " miss(es), " ++
    count warnings ++ " warning(s)"

/-- A line for people, left out where quiet is asked for. -/
def notice (globals : Globals) (line : Text) : Transcript :=
  if globals.quiet then .empty else .printError line

/-! ## All passes -/

/-- What does not change between the passes of a build. -/
structure BuildPlan where
  globals : Globals
  project : Project
  files : FileTree
  templates : List FilePath
  passes : Nat
  cold : Bool

/-- One pass (SPEC §7.5): what it wrote and how many templates failed, or why it could not begin. -/
def runPass (plan : BuildPlan) (pass : Nat) (session : Session) :
    Except LoadError (Transcript × Nat) × Session :=
  let before := session.counts
  let session := if plan.cold then session.clearCaches else session
  match attempt (Session.buildStart plan.project plan.files) session with
  | (.error e, session) => (.error e, session)
  | (.ok _, session) =>
    let (loads, session) := loadGraphs plan.project plan.files plan.templates session
    let (taken, session) := session.takeDiagnostics
    let result := { loads with diagnostics := loads.diagnostics ++ taken }
    let transcript :=
      notice plan.globals (startLine pass plan.passes plan.templates.length) ++
        Transcript.reportAll (isColored plan.globals) plan.files result.diagnostics ++
        notice plan.globals (finishLine pass result (session.counts.since before))
    (.ok (transcript, result.failures), session)

/-- The last `left` passes, after what was written and what failed before. -/
def runPasses (plan : BuildPlan) :
    (left : Nat) → (written : Transcript) → (failures : Nat) → Session → Outcome
  | 0, written, failures, _ => ⟨if failures = 0 then 0 else 1, written⟩
  | left + 1, written, failures, session =>
    match runPass plan (plan.passes - left) session with
    | (.error e, _) => .fail written e.message
    | (.ok (transcript, failed), session) =>
      runPasses plan left (written ++ transcript) (failures + failed) session

/-- Builds templates in some passes; the exit code tells whether all could be loaded. -/
def build (globals : Globals) (files : FileTree) (names : List Text) (passes : Nat) (cold : Bool) :
    Outcome :=
  match projectOf files globals with
  | .error e => .fail .empty e.message
  | .ok project =>
    let plan : BuildPlan := {
      globals := globals
      project := project
      files := files
      templates := templateFiles project files.workingDirectory names
      passes := passes
      cold := cold }
    runPasses plan passes .empty 0 .fresh

/-! ## Command lines -/

/-- The name and version of the program. -/
def versionLine : Text := "kiln 0.1.0"

/-- How the program is called. -/
def usageLine : Text := "usage: kiln [SWITCHES] (load IDS | build FILES) [SWITCHES]"

/-- The outcome of a command line that gives no task. -/
def Refusal.outcome : Refusal → Outcome
  | usage => ⟨2, Transcript.printError usageLine⟩
  | version => ⟨0, Transcript.print versionLine⟩

/-- The outcome of what a command line says. -/
def Invocation.run (invocation : Invocation) (files : FileTree) : Outcome :=
  match invocation.task with
  | .load ids format => load invocation.globals files ids format
  | .build names passes cold => build invocation.globals files names passes cold

/-- The outcome of a command line. -/
def run (files : FileTree) (arguments : List Text) : Outcome :=
  match Invocation.read arguments with
  | .error refusal => refusal.outcome
  | .ok invocation => invocation.run files

end ComponentLoader.Command
