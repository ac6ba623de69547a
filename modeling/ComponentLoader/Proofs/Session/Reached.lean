import ComponentLoader.Proofs.Session.History
import ComponentLoader.Proofs.Session.Retain
import Mathlib.Data.List.Induction
set_option autoImplicit false

/-!
# Moments that are reached (SPEC §3)

A moment is reached if some events lead to it from a fresh session, in whatever order: files
may come, change and go also between the loads of a pass.  What is known about the entries of a
session then is little, but does not depend on the files: the entry of a template is what its
source was compiled to, an inline stylesheet is what was once made of its text, and all
recorded paths have been files.

What is to hold of the entries at every moment that is reached has to hold of a session without
entries and to be preserved by one change of the entries: it is a `Session.Invariant` then, and
`Moment.Reached.of_invariant` carries it along the events.  That an inline stylesheet was made of
the files which a load of its id saw (`Moment.LoadSaw`) is about the events as well, and is
carried along by itself.
-/

namespace ComponentLoader

/-! ## Events -/

/-- Whether an event changes files. -/
def Event.edits : Event → Bool
  | .edit _ => true
  | .buildStart | .clearCaches | .takeDiagnostics | .load _ => false

/-- Whether an event begins a pass. -/
def Event.startsPass : Event → Bool
  | .buildStart => true
  | .edit _ | .clearCaches | .takeDiagnostics | .load _ => false

/-- Whether an event drops the entries. -/
def Event.clears : Event → Bool
  | .clearCaches => true
  | .edit _ | .buildStart | .takeDiagnostics | .load _ => false

namespace Moment

/-- The moment after some events. -/
def run (project : Project) (moment : Moment) (events : List Event) : Moment :=
  events.foldl (next project) moment

/-- What every one of some events preserves holds after all of them. -/
theorem run_of_step {project : Project} {P : Moment → Prop} {events : List Event}
    (hstep : ∀ moment event, event ∈ events → P moment → P (moment.next project event))
    {moment : Moment} (h : P moment) : P (moment.run project events) := by
  unfold run
  induction events generalizing moment with
  | nil => exact h
  | cons event rest ih =>
      apply ih
      · exact fun moment event hmem => hstep moment event (List.mem_cons_of_mem _ hmem)
      · exact hstep moment event List.mem_cons_self h

theorem run_append (project : Project) (start : Moment) (events more : List Event) :
    start.run project (events ++ more) = (start.run project events).run project more :=
  List.foldl_append

/-- The files that a load of an id saw, as some events happened one after the other. -/
def LoadSaw (project : Project) (start : Moment) (events : List Event) (id : Text)
    (tree : FileTree) : Prop :=
  ∃ before after, events = before ++ .load id :: after ∧ (start.run project before).files = tree

theorem LoadSaw.append {project : Project} {start : Moment} {events : List Event} {id : Text}
    {tree : FileTree} (h : start.LoadSaw project events id tree) (more : List Event) :
    start.LoadSaw project (events ++ more) id tree := by
  obtain ⟨before, after, rfl, htree⟩ := h
  exact ⟨before, after ++ more, by simp, htree⟩

theorem loadSaw_concat (project : Project) (start : Moment) (events : List Event) (id : Text) :
    start.LoadSaw project (events ++ [.load id]) id (start.run project events).files :=
  ⟨events, [], rfl, rfl⟩

/-- Some events lead to the moment from a fresh session. -/
def Reached (project : Project) (moment : Moment) : Prop :=
  ∃ files events, moment = (fresh files).run project events

theorem Reached.run {project : Project} {moment : Moment} (reached : moment.Reached project)
    (events : List Event) : (moment.run project events).Reached project := by
  obtain ⟨files, done, rfl⟩ := reached
  exact ⟨files, done ++ events, (run_append project _ done events).symm⟩

theorem Reached.fresh (project : Project) (files : FileTree) :
    (Moment.fresh files).Reached project :=
  ⟨files, [], rfl⟩

end Moment

/-! ## Invariants of the entries -/

/-- The property is one of the entries alone: it holds where there are none, and every change of the
entries preserves it. -/
structure Session.Invariant (project : Project) (P : Session → Prop) : Prop where
  empty : ∀ session, session.templates = .empty → session.stylesheets = .empty → P session
  entries : ∀ session next, next.templates = session.templates →
    next.stylesheets = session.stylesheets → P session → P next
  change : ∀ files id path request session next, project.Asks id path request →
    Session.Change project files id path session request next → P session → P next

/-- One event preserves every invariant of the entries. -/
theorem Session.Invariant.next {project : Project} {P : Session → Prop}
    (invariant : Session.Invariant project P) {moment : Moment} (event : Event)
    (h : P moment.session) : P (moment.next project event).session := by
  cases event with
  | edit change => exact h
  | buildStart =>
      obtain ⟨-, htemplates, hstylesheets, -⟩ :=
        Session.after_buildStart project moment.files moment.session
      exact invariant.entries _ _ htemplates hstylesheets h
  | clearCaches => exact invariant.empty _ rfl rfl
  | takeDiagnostics => exact invariant.entries moment.session _ rfl rfl h
  | load id =>
      exact Session.after_load_of_change
        (fun path request hasks a b => invariant.change moment.files id path request a b hasks) h

/-- What is invariant holds at every moment that is reached. -/
theorem Moment.Reached.of_invariant {project : Project} {P : Session → Prop}
    (invariant : Session.Invariant project P) {moment : Moment}
    (reached : moment.Reached project) : P moment.session := by
  obtain ⟨files, events, rfl⟩ := reached
  exact run_of_step (P := fun moment => P moment.session)
    (fun _ event _ h => invariant.next event h) (invariant.empty _ rfl rfl)

/-! ## Entries of templates -/

/-- The entry holds what its source is compiled to, with some helpers. -/
structure TemplateEntry.CompiledBy (entry : TemplateEntry) (project : Project) (path : FilePath)
    (scene : Scene) (compiled : CompiledTemplate) : Prop where
  compile : project.compileIn scene path = .ok compiled
  base : entry.base = (TemplateEntry.ofCompiled entry.base.key compiled).base
  scripts : entry.scripts = compiled.scripts
  styles : entry.styles = compiled.styles

/-- Every kept template has once been compiled. -/
def Session.Compiled (session : Session) (project : Project) : Prop :=
  ∀ path entry, session.templates.get? path.text = some entry →
    ∃ scene compiled, entry.CompiledBy project path scene compiled

namespace Session

section

variable {project : Project} {files : FileTree} {id : Text} {path : FilePath} {session : Session}

theorem Compiled.putTemplate (h : session.Compiled project) {entry : TemplateEntry}
    (hentry : ∃ scene compiled, entry.CompiledBy project path scene compiled) :
    Compiled { session with templates := session.templates.insert path.text entry } project := by
  intro asked found hfound
  rcases OrderedMap.get?_insert_eq_some hfound with ⟨hpath, rfl⟩ | hold
  · obtain rfl : asked = path := congrArg FilePath.mk hpath
    exact hentry
  · exact h asked found hold

/-- A template is put when it has been compiled, or again with one more stylesheet. -/
theorem Change.keeps_compiled {request : Request} {next : Session}
    (h : Change project files id path session request next)
    (hcompiled : session.Compiled project) : next.Compiled project := by
  cases h with
  | asked hgrows sink counts runs => exact hcompiled
  | compiled hidentity hstale hcompile =>
      exact hcompiled.putTemplate ⟨_, _, hcompile, rfl, rfl, rfl⟩
  | styled hkept hkey hinline hstale hgrows hprocess hcode hpaths counts runs =>
      obtain ⟨scene, compiled, htemplate⟩ := hcompiled path _ hkept
      exact hcompiled.putTemplate
        ⟨scene, compiled, htemplate.compile, htemplate.base, htemplate.scripts, htemplate.styles⟩
  | stylesheet hidentity hstale hgrows hsource hprocess hpaths counts runs => exact hcompiled

end

end Session

theorem Session.compiled_invariant (project : Project) :
    Session.Invariant project fun session => session.Compiled project where
  empty session htemplates _ := by
    intro path entry hentry
    rw [htemplates] at hentry
    cases hentry
  entries session next htemplates _ h := fun path entry hentry => h path entry (htemplates ▸ hentry)
  change _ _ _ _ _ _ _ hchange h := hchange.keeps_compiled h

/-- Every template that is kept at a moment that is reached has once been compiled. -/
theorem Moment.Reached.compiled {project : Project} {moment : Moment}
    (reached : moment.Reached project) : moment.session.Compiled project :=
  reached.of_invariant (Session.compiled_invariant project)

/-! ## Inline stylesheets -/

/-- Every stylesheet that is kept with the template under an id is what the pipeline has once made
of the text of the element that the id asks for. -/
def TemplateEntry.StylesMade (entry : TemplateEntry) (project : Project) (path : FilePath) : Prop :=
  ∀ id style, entry.styleCache.get? id = some style →
    ∃ scope index content lang, project.Asks id path (.inlineStyle scope index) ∧
      Session.inlineStyle? entry index = some (content, lang) ∧
      ∃ files processed,
        project.toolchain.pipeline.process files content (project.inlineRequest path scope lang) =
          .ok processed ∧
        style.code = processed.code

/-- The same of all templates. -/
def Session.StylesMade (session : Session) (project : Project) : Prop :=
  ∀ (path : FilePath) (entry : TemplateEntry),
    session.templates.get? path.text = some entry → entry.StylesMade project path

/-- Every stylesheet that is kept with the template under an id has the module that the pipeline has
made, in one of some trees for the id, of the text of the element that the id asks for. -/
def TemplateEntry.StylesMadeIn (entry : TemplateEntry) (project : Project) (path : FilePath)
    (trees : Text → FileTree → Prop) : Prop :=
  ∀ id style, entry.styleCache.get? id = some style →
    ∃ scope index content lang, project.Asks id path (.inlineStyle scope index) ∧
      Session.inlineStyle? entry index = some (content, lang) ∧
      ∃ tree processed, trees id tree ∧
        project.toolchain.pipeline.process tree content (project.inlineRequest path scope lang) =
          .ok processed ∧
        Session.styleModule style = processed.loaded [path]

theorem TemplateEntry.StylesMadeIn.stylesMade {entry : TemplateEntry} {project : Project}
    {path : FilePath} {trees : Text → FileTree → Prop} (h : entry.StylesMadeIn project path trees) :
    entry.StylesMade project path := by
  intro id style hstyle
  obtain ⟨scope, index, content, lang, hasks, hinline, tree, processed, -, hprocess, hloaded⟩ :=
    h id style hstyle
  exact ⟨scope, index, content, lang, hasks, hinline, tree, processed, hprocess,
    congrArg LoadedModule.contents hloaded⟩

/-- Every stylesheet that is kept with some template. -/
def Session.StylesMadeIn (session : Session) (project : Project) (trees : Text → FileTree → Prop) :
    Prop :=
  ∀ (path : FilePath) (entry : TemplateEntry),
    session.templates.get? path.text = some entry → entry.StylesMadeIn project path trees

section

variable {project : Project} {trees : Text → FileTree → Prop}

theorem Session.stylesMadeIn_of_empty {session : Session} (h : session.templates = .empty) :
    session.StylesMadeIn project trees := by
  intro path entry hentry
  rw [h] at hentry
  cases hentry

theorem Session.StylesMadeIn.mono {session : Session} (h : session.StylesMadeIn project trees)
    {trees' : Text → FileTree → Prop} (htrees : ∀ id tree, trees id tree → trees' id tree) :
    session.StylesMadeIn project trees' := by
  intro path entry hentry id style hstyle
  obtain ⟨scope, index, content, lang, hasks, hinline, tree, processed, hmem, hmade⟩ :=
    h path entry hentry id style hstyle
  exact ⟨scope, index, content, lang, hasks, hinline, tree, processed, htrees id tree hmem, hmade⟩

theorem Session.StylesMadeIn.putTemplate {session : Session}
    (h : session.StylesMadeIn project trees) {path : FilePath} {entry : TemplateEntry}
    (hentry : entry.StylesMadeIn project path trees) :
    StylesMadeIn { session with templates := session.templates.insert path.text entry } project
      trees := by
  intro asked found hfound
  rcases OrderedMap.get?_insert_eq_some hfound with ⟨hpath, rfl⟩ | hold
  · obtain rfl : asked = path := congrArg FilePath.mk hpath
    exact hentry
  · exact h asked found hold

/-- A stylesheet is put under the id that asks for the element that it was made of. -/
theorem Session.Change.keeps_stylesMadeIn {files : FileTree} {id : Text} {path : FilePath}
    {request : Request} {session next : Session}
    (h : Change project files id path session request next) (hasks : project.Asks id path request)
    (hfiles : trees id files) (hmade : session.StylesMadeIn project trees) :
    next.StylesMadeIn project trees := by
  cases h with
  | asked hgrows sink counts runs => exact hmade
  | compiled hidentity hstale hcompile =>
      exact hmade.putTemplate fun id style hstyle => (nomatch hstyle)
  | @styled scope index template content lang memo memo' made processed hkept hkey hinline hstale
      hgrows hprocess hcode hpaths counts runs hloaded =>
      refine hmade.putTemplate ?_
      intro asked style hstyle
      rcases OrderedMap.get?_insert_eq_some hstyle with ⟨rfl, rfl⟩ | hold
      · exact ⟨scope, index, content, lang, hasks, hinline, files, processed, hfiles, hprocess,
          hloaded⟩
      · exact hmade path template hkept asked style hold
  | stylesheet hidentity hstale hgrows hsource hprocess hpaths counts runs => exact hmade

/-- One event adds no stylesheet but one for the id that is loaded, made in the present tree. -/
theorem Session.StylesMadeIn.next {moment : Moment} (h : moment.session.StylesMadeIn project trees)
    (event : Event) (hfiles : ∀ id, event = .load id → trees id moment.files) :
    (moment.next project event).session.StylesMadeIn project trees := by
  cases event with
  | edit change => exact h
  | buildStart =>
      obtain ⟨-, htemplates, -⟩ := Session.after_buildStart project moment.files moment.session
      exact fun path entry hentry => h path entry (htemplates ▸ hentry)
  | clearCaches => exact stylesMadeIn_of_empty rfl
  | takeDiagnostics => exact h
  | load id =>
      exact Session.after_load_of_change
        (fun path request hasks a b hchange => hchange.keeps_stylesMadeIn hasks (hfiles id rfl)) h

/-- Every inline stylesheet that is kept after some events was made in the files that one of the
loads of its id saw. -/
theorem Moment.stylesMadeIn_run (project : Project) (files : FileTree) (events : List Event) :
    ((fresh files).run project events).session.StylesMadeIn project
      ((fresh files).LoadSaw project events) := by
  induction events using List.reverseRecOn with
  | nil => exact Session.stylesMadeIn_of_empty rfl
  | append_singleton done event ih =>
      rw [run_append]
      refine (ih.mono fun _ _ hsaw => hsaw.append [event]).next event ?_
      rintro id rfl
      exact loadSaw_concat project _ done id

theorem Moment.Reached.stylesMadeIn {moment : Moment} (reached : moment.Reached project) :
    moment.session.StylesMadeIn project fun _ _ => True := by
  obtain ⟨files, events, rfl⟩ := reached
  exact (stylesMadeIn_run project files events).mono fun _ _ _ => trivial

/-- Every inline stylesheet that is kept at a moment that is reached was made of its text. -/
theorem Moment.Reached.stylesMade {moment : Moment} (reached : moment.Reached project) :
    moment.session.StylesMade project :=
  fun path entry hentry => (reached.stylesMadeIn path entry hentry).stylesMade

end

/-! ## Recorded paths -/

/-- All paths that are recorded with kept stylesheets have been files. -/
structure Session.RecordsFiles (session : Session) : Prop where
  styles : ∀ (path : FilePath) (entry : TemplateEntry),
    session.templates.get? path.text = some entry →
    ∀ id style, entry.styleCache.get? id = some style → style.RecordsFiles
  stylesheets : ∀ id entry, session.stylesheets.get? id = some entry →
    (ModuleId.pathOf id).NamesFile ∧ entry.RecordsFiles

section

variable {project : Project} {files : FileTree} {id : Text} {path : FilePath}

theorem FilePath.namesFile_of_readText {text : Text} (h : files.readText path = .ok text) :
    path.NamesFile :=
  ⟨files, FileTree.isFile_of_readText h⟩

/-- A template that has been compiled was read from a file, and records nothing else. -/
theorem TemplateEntry.CompiledBy.namesFile {entry : TemplateEntry} {scene : Scene}
    {compiled : CompiledTemplate} (h : entry.CompiledBy project path scene compiled) :
    path.NamesFile ∧ entry.base.RecordsFiles := by
  obtain ⟨source, parsed, hsource, -⟩ := Project.compileIn_eq_ok_iff.mp h.compile
  refine ⟨FilePath.namesFile_of_readText hsource, ?_⟩
  intro record hmem
  rw [h.base] at hmem
  cases hmem

/-- All dependencies of a stylesheet have been files if its own file has. -/
theorem StylePipeline.namesFile_of_process {pipeline : StylePipeline}
    (hloads : pipeline.preprocessor.LoadsFiles) {source : Text} {request : StyleRequest}
    {processed : ProcessedStyle} (hprocess : pipeline.process files source request = .ok processed)
    (hfile : request.file.NamesFile) : ∀ d ∈ processed.dependencies, d.NamesFile := by
  intro d hmem
  rcases mem_dependencies_of_process hprocess hmem with rfl | ⟨out, hout, hloaded⟩
  · exact hfile
  · exact ⟨files, hloads _ _ _ _ out hout d hloaded⟩

theorem CacheEntry.RecordsFiles.ofTemplate {made : CacheEntry} (h : made.RecordsFiles)
    (hpath : path.NamesFile) (key : CacheKey) : (made.ofTemplate path key).RecordsFiles := by
  intro record hmem
  rcases OrderedMap.mem_entries_insert hmem with hmem | ⟨-, hrecord | ⟨-, old, hold⟩⟩
  · exact h record hmem
  · rw [hrecord]
    exact hpath
  · exact h (record.1, old) hold

/-- Whatever is put records files only. -/
theorem Session.Change.keeps_recordsFiles
    (hloads : project.toolchain.pipeline.preprocessor.LoadsFiles) {request : Request}
    {session next : Session} (h : Change project files id path session request next)
    (hpath : path = ModuleId.pathOf id) (hcompiled : session.Compiled project)
    (hrecords : session.RecordsFiles) : next.RecordsFiles := by
  cases h with
  | asked hgrows sink counts runs => exact ⟨hrecords.styles, hrecords.stylesheets⟩
  | compiled hidentity hstale hcompile =>
      refine ⟨?_, hrecords.stylesheets⟩
      intro asked entry hfound
      rcases OrderedMap.get?_insert_eq_some hfound with ⟨-, rfl⟩ | hold
      · exact fun id style hstyle => (nomatch hstyle)
      · exact hrecords.styles asked entry hold
  | @styled scope index template content lang memo memo' made processed hkept hkey hinline hstale
      hgrows hprocess hcode hpaths counts runs =>
      refine ⟨?_, hrecords.stylesheets⟩
      intro asked entry hfound
      rcases OrderedMap.get?_insert_eq_some hfound with ⟨-, rfl⟩ | hold
      · intro id' style hstyle
        rcases OrderedMap.get?_insert_eq_some hstyle with ⟨-, rfl⟩ | hold
        · obtain ⟨scene, compiled, htemplate⟩ := hcompiled path template hkept
          obtain ⟨hnames, -⟩ := htemplate.namesFile
          have hdependencies := StylePipeline.namesFile_of_process hloads hprocess hnames
          have hmade : made.RecordsFiles :=
            fun record hmem => hdependencies _ (hpaths record hmem)
          exact hmade.ofTemplate hnames template.base.key
        · exact hrecords.styles path template hkept id' style hold
      · exact hrecords.styles asked entry hold
  | stylesheet hidentity hstale hgrows hsource hprocess hpaths counts runs =>
      refine ⟨hrecords.styles, ?_⟩
      intro asked entry hfound
      rcases OrderedMap.get?_insert_eq_some hfound with ⟨rfl, rfl⟩ | hold
      · have hnames := FilePath.namesFile_of_readText hsource
        have hdependencies := StylePipeline.namesFile_of_process hloads hprocess hnames
        exact ⟨hpath ▸ hnames, fun record hmem => hdependencies _ (hpaths record hmem)⟩
      · exact hrecords.stylesheets asked entry hold

theorem Session.recordsFiles_invariant
    (hloads : project.toolchain.pipeline.preprocessor.LoadsFiles) :
    Session.Invariant project fun session => session.Compiled project ∧ session.RecordsFiles where
  empty session htemplates hstylesheets := by
    refine ⟨(compiled_invariant project).empty session htemplates hstylesheets, ?_, ?_⟩
    · intro path entry hentry
      rw [htemplates] at hentry
      cases hentry
    · intro id entry hentry
      rw [hstylesheets] at hentry
      cases hentry
  entries session next htemplates hstylesheets h :=
    ⟨(compiled_invariant project).entries session next htemplates hstylesheets h.1,
      fun path entry hentry => h.2.styles path entry (htemplates ▸ hentry),
      fun id entry hentry => h.2.stylesheets id entry (hstylesheets ▸ hentry)⟩
  change _ _ _ _ _ _ hasks hchange h :=
    ⟨hchange.keeps_compiled h.1, hchange.keeps_recordsFiles hloads hasks.path_eq h.1 h.2⟩

/-- Every path that is recorded at a moment that is reached has once been a file. -/
theorem Moment.Reached.recordsFiles (hloads : project.toolchain.pipeline.preprocessor.LoadsFiles)
    {moment : Moment} (reached : moment.Reached project) : moment.session.RecordsFiles :=
  (reached.of_invariant (Session.recordsFiles_invariant hloads)).2

end

end ComponentLoader
