import ComponentLoader.Command.Arguments
import ComponentLoader.Diagnostic.Json
import ComponentLoader.Diagnostic.Render
import ComponentLoader.FileTree.Basic
import ComponentLoader.Session.Load
import ComponentLoader.Settings.File
set_option autoImplicit false

/-!
# Loading from the command line (SPEC §7.5)

A command works on a project: the options that are in force are those of the configuration file that
is named or that is found above the working directory, and over them what the command line says.  It
writes to its output and to its error output, and ends with an exit code.

Modules are loaded in the order of their ids within one pass, so that the parts of a template can be
loaded after it.  What came of each is reported in the same order, as text or as one JSON value.
-/

namespace ComponentLoader.Command

/-! ## Outcomes -/

/-- What was written so far. -/
structure Transcript where
  output : Text := []
  errors : Text := []
  deriving DecidableEq, Repr, Inhabited

namespace Transcript

/-- One transcript after the other. -/
instance : Append Transcript where
  append a b := ⟨a.output ++ b.output, a.errors ++ b.errors⟩

/-- Nothing. -/
def empty : Transcript := {}

/-- A line of output. -/
def print (line : Text) : Transcript :=
  { output := line ++ ['\n'] }

/-- A line of error output. -/
def printError (line : Text) : Transcript :=
  { errors := line ++ ['\n'] }

/-- Some transcripts one after the other. -/
def concat (parts : List Transcript) : Transcript :=
  parts.foldl (· ++ ·) empty

/-- A diagnostic on the error output, with its source line where the file can be read. -/
def report (color : Bool) (files : FileTree) (diagnostic : Diagnostic) : Transcript :=
  let source := diagnostic.file.bind fun file => (files.readText file).toOption
  printError (diagnostic.render color source)

/-- Some diagnostics on the error output. -/
def reportAll (color : Bool) (files : FileTree) (diagnostics : List Diagnostic) : Transcript :=
  concat (diagnostics.map (report color files))

end Transcript

/-- The end of a command. -/
structure Outcome where
  exit : Nat
  transcript : Transcript
  deriving DecidableEq, Repr, Inhabited

/-- The end of a command that gave up for a reason. -/
def Outcome.fail (written : Transcript) (message : Text) : Outcome :=
  ⟨1, written ++ Transcript.printError ("error: " ++ message)⟩

/-! ## Projects -/

/-- Why there is no project. -/
inductive ProjectError where
  | config (e : ConfigError)
  | settings (e : SettingsError)
  deriving Repr, Inhabited

/-- The wording of an error. -/
def ProjectError.message : ProjectError → Text
  | config e => e.message
  | settings e => e.message

/-- The options of the configuration file that is in force. -/
def fileOptions (files : FileTree) (named : Option FilePath) : Except ConfigError Options :=
  match named with
  | some path => loadOptions files path
  | none =>
    match findConfig files files.workingDirectory with
    | .ok path => loadOptions files path
    | .error _ => .ok {}

/-- The settings that are in force. -/
def settingsOf (files : FileTree) (globals : Globals) : Except ProjectError Settings :=
  match fileOptions files globals.config with
  | .error e => .error (.config e)
  | .ok options =>
    match (options.merge { root := globals.root }).resolve with
    | .error e => .error (.settings e)
    | .ok settings => .ok settings

/-- The project of a command in the working directory. -/
def projectOf (files : FileTree) (globals : Globals) : Except ProjectError Project :=
  (settingsOf files globals).map fun settings =>
    .ofSettings settings .standard files.workingDirectory

/-- Whether output is coloured; without a choice it is not, as there is no terminal. -/
def isColored (globals : Globals) : Bool :=
  globals.color = .always

/-! ## Loading -/

/-- An id with what came of loading it. -/
structure LoadRecord where
  id : Text
  result : Except LoadError (Option LoadedModule)
  deriving Repr, Inhabited

/-- Whether loading failed. -/
def LoadRecord.hasFailed (record : LoadRecord) : Bool :=
  match record.result with
  | .error _ => true
  | .ok _ => false

/-- What comes of a step of a session, and the session after it. -/
def attempt {α : Type} (step : SessionM α) (session : Session) : Except LoadError α × Session :=
  match step.run session with
  | .ok value session => (.ok value, session)
  | .error e session => (.error e, session)

/-- Loads modules one after the other. -/
def loadAll (project : Project) (files : FileTree) :
    List Text → Session → List LoadRecord × Session
  | [], session => ([], session)
  | id :: rest, session =>
    let (result, session) := attempt (Session.load project files id) session
    let (records, session) := loadAll project files rest session
    (⟨id, result⟩ :: records, session)

/-! ## Text reports -/

/-- A module as text: a line with its id and loader, and its contents. -/
def moduleText (id : Text) (loaded : LoadedModule) : Transcript :=
  Transcript.print ("// " ++ id ++ " (" ++ loaded.loader.text ++ ")") ++
    Transcript.print (Text.trimEnd loaded.contents)

/-- What came of an id as text. -/
def recordText (globals : Globals) (files : FileTree) (record : LoadRecord) : Transcript :=
  match record.result with
  | .error e => Transcript.printError ("error: " ++ record.id ++ ": " ++ e.message)
  | .ok none =>
    if globals.quiet then .empty
    else Transcript.printError ("    Skipped " ++ record.id ++ " (not handled)")
  | .ok (some loaded) =>
    moduleText record.id loaded ++
      Transcript.reportAll (isColored globals) files loaded.diagnostics

/-- A report as text. -/
def textReport (globals : Globals) (files : FileTree) (records : List LoadRecord)
    (diagnostics : List Diagnostic) : Transcript :=
  Transcript.concat (records.map (recordText globals files)) ++
    Transcript.reportAll (isColored globals) files diagnostics

/-! ## JSON reports -/

/-- A module as an object. -/
def moduleJson (loaded : LoadedModule) : Json :=
  .object [
    ("contents", .text loaded.contents),
    ("loader", .text loaded.loader.text),
    ("diagnostics", .list (loaded.diagnostics.map Diagnostic.toJson)),
    ("watch_files", .list (loaded.watchFiles.map fun path => .text path.text))]

/-- What came of an id as an object. -/
def recordJson (record : LoadRecord) : Json :=
  let result : List (Text × Json) :=
    match record.result with
    | .error e => [("error", .text e.message)]
    | .ok none => []
    | .ok (some loaded) => [("result", moduleJson loaded)]
  .object (("id".toList, .text record.id) :: result)

/-- A report as one JSON value. -/
def jsonReport (records : List LoadRecord) (diagnostics : List Diagnostic) : Transcript :=
  let report := Json.object [
    ("modules", .list (records.map recordJson)),
    ("diagnostics", .list (diagnostics.map Diagnostic.toJson))]
  Transcript.print (report.pretty 0)

/-! ## The command -/

/-- Loads modules and reports them; the exit code tells whether all could be loaded. -/
def load (globals : Globals) (files : FileTree) (ids : List Text)
    (format : ReportFormat) : Outcome :=
  match projectOf files globals with
  | .error e => .fail .empty e.message
  | .ok project =>
    match attempt (Session.buildStart project files) .fresh with
    | (.error e, _) => .fail .empty e.message
    | (.ok _, session) =>
      let (records, session) := loadAll project files ids session
      let diagnostics := session.sink.held
      let transcript :=
        match format with
        | .text => textReport globals files records diagnostics
        | .json => jsonReport records diagnostics
      ⟨if records.any LoadRecord.hasFailed then 1 else 0, transcript⟩

end ComponentLoader.Command
