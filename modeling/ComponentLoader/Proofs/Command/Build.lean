import ComponentLoader.Command.Run
import ComponentLoader.Proofs.Module.RoundTrip
import ComponentLoader.Proofs.Session.Foreign
import ComponentLoader.Proofs.Settings.Extension
set_option autoImplicit false

/-!
# Files of a build (SPEC §7.5)

A build chooses its files as paths and loads them by their texts.  Both look at the extension, but a
text is read as a module id, which ends its path at the first question mark.  So a file that is kept
is loaded as the template that it is exactly if its path holds no question mark
(`Project.asks_text_iff`), and then it is a module of the build or makes it fail.

Of a file with a question mark in its path, what is loaded is what stands in front of it.  If that
is none of our files, the build counts no module, and says nothing (`PassesOver`).
-/

namespace ComponentLoader

/-! ## Paths that are loaded by their texts -/

section

variable {project : Project} {template : FilePath}

theorem Project.asks_text_of_not_mem (htemplate : project.settings.isTemplate template = true)
    (hmark : '?' ∉ template.text) : project.Asks template.text template .template :=
  ⟨⟨template, none⟩, ModuleId.parse_path_iff.mpr hmark, rfl,
    Request.classify_file_iff.mpr htemplate⟩

/-- The text of a template asks for that template, however its path is spelled in what is asked for,
exactly if it holds no question mark. -/
theorem Project.asks_text_iff (htemplate : project.settings.isTemplate template = true) :
    (∃ path, path.Same template ∧ project.Asks template.text path .template) ↔
      '?' ∉ template.text := by
  constructor
  · rintro ⟨path, hsame, parsed, hparse, rfl, -⟩
    rw [← hsame.mem_text_iff (by decide) (by decide)]
    exact ModuleId.not_mem_path_of_parse hparse
  · intro hmark
    exact ⟨template, .refl template, asks_text_of_not_mem htemplate hmark⟩

end

namespace Session

variable {project : Project} {files : FileTree} {id : Text} {path : FilePath}
    {session next : Session}

/-- A template that is asked for is answered, or its load fails. -/
theorem load_ne_none (hasks : project.Asks id path .template) :
    load project files id session ≠ .ok none next := by
  intro hload
  have houtcome := load_outcome project files id session
  rw [hload] at houtcome
  cases houtcome with
  | foreign hnone => exact hnone path .template hasks
  | served hasks' hserve =>
      obtain ⟨rfl, rfl⟩ := hasks.unique hasks'
      exact absurd hserve.of_none.1 Bool.false_ne_true

/-- Where nothing is answered, the file is not ours, or a diagnostic says so. -/
theorem isForeign_or_sink_of_none (hload : load project files id session = .ok none next) :
    project.settings.IsForeign (ModuleId.pathOf id) ∨
      ∃ diagnostic, next.sink = session.sink.emit diagnostic := by
  have houtcome := load_outcome project files id session
  rw [hload] at houtcome
  cases houtcome with
  | foreign hnone =>
      refine Or.inl (Classical.byContradiction fun hours => ?_)
      cases hparse : ModuleId.parse id with
      | error e =>
          have hfails : Fails (load project files id) session (.invalidId e) :=
            (fails_invalidId_iff hours).mpr hparse
          obtain ⟨next', herror⟩ := hfails
          rw [hload] at herror
          cases herror
      | ok parsed =>
          obtain ⟨request, hasks⟩ := Project.exists_asks_of_parse hparse hours
          exact hnone _ request hasks
  | @served path request _ hasks hserve =>
      have hemit {middle : Session} {template : TemplateEntry}
          (howner : OwnerOutcome project files path session (.ok template middle)) :
          middle.sink.emit (missingResource id path) =
            session.sink.emit (missingResource id path) := by
        rw [show middle.sink = session.sink from howner.sink_eq]
      cases hserve with
      | noScript howner hnone => exact Or.inr ⟨_, hemit howner⟩
      | noStyle howner hnone => exact Or.inr ⟨_, hemit howner⟩

end Session

/-! ## Graphs -/

namespace Command

section

variable {project : Project} {files : FileTree} {template : FilePath} {session next : Session}

theorem loadGraph_of_none (h : Session.load project files template.text session = .ok none next) :
    loadGraph project files template session = (⟨.ok 0, []⟩, next) := by
  unfold loadGraph attempt EStateM.run
  rw [h]

theorem loadGraph_of_error {e : LoadError}
    (h : Session.load project files template.text session = .error e next) :
    loadGraph project files template session = (⟨.error e, []⟩, next) := by
  unfold loadGraph attempt EStateM.run
  rw [h]

/-- A template that is answered is counted. -/
theorem loadGraph_of_some {loaded : LoadedModule}
    (h : Session.load project files template.text session = .ok (some loaded) next) :
    ∃ graph : GraphLoad,
      (loadGraph project files template session).1 = graph.withModule loaded := by
  unfold loadGraph attempt EStateM.run
  rw [h]
  exact ⟨_, rfl⟩

theorem GraphLoad.result_withModule_ne_zero (graph : GraphLoad) (loaded : LoadedModule) :
    (graph.withModule loaded).result ≠ .ok 0 := by
  unfold withModule
  cases graph.result with
  | error e => nofun
  | ok count => simp [Except.map]

/-- No module is counted exactly if nothing is answered to the text of the template. -/
theorem result_loadGraph_eq_zero_iff :
    (loadGraph project files template session).1.result = .ok 0 ↔
      ∃ next, Session.load project files template.text session = .ok none next := by
  constructor
  · intro hzero
    cases hload : Session.load project files template.text session with
    | error e next =>
        rw [loadGraph_of_error hload] at hzero
        cases hzero
    | ok answer next =>
        cases answer with
        | none => exact ⟨next, rfl⟩
        | some loaded =>
            obtain ⟨graph, hgraph⟩ := loadGraph_of_some hload
            rw [hgraph] at hzero
            exact absurd hzero (graph.result_withModule_ne_zero loaded)
  · rintro ⟨next, hload⟩
    rw [loadGraph_of_none hload]

end

/-- Loading a template counts no module, and neither fails nor leaves a diagnostic. -/
def PassesOver (project : Project) (files : FileTree) (template : FilePath) (session : Session) :
    Prop :=
  let loaded := loadGraph project files template session
  loaded.1.result = .ok 0 ∧ loaded.1.diagnostics = [] ∧ loaded.2.sink = session.sink

theorem passesOver_iff {project : Project} {files : FileTree} {template : FilePath}
    {session : Session} :
    PassesOver project files template session ↔
      project.settings.IsForeign (ModuleId.pathOf template.text) := by
  constructor
  · intro hpasses
    obtain ⟨next, hload⟩ := result_loadGraph_eq_zero_iff.mp hpasses.1
    have hsink : (loadGraph project files template session).2.sink = session.sink := hpasses.2.2
    rw [loadGraph_of_none hload] at hsink
    refine (Session.isForeign_or_sink_of_none hload).resolve_right ?_
    rintro ⟨diagnostic, hemit⟩
    have hheld := congrArg (·.held.length) (hsink.symm.trans hemit)
    simp [DiagnosticSink.emit] at hheld
  · intro hforeign
    unfold PassesOver
    rw [loadGraph_of_none (Session.load_of_isForeign hforeign)]
    exact ⟨rfl, rfl, rfl⟩

/-! ## Files that are kept -/

/-- A file that a build keeps is loaded as the template that it is, however its path is spelled in
what is asked for, exactly if its path holds no question mark.  Then it is counted or its load
fails, whatever the files are and whatever was loaded before.  In any case it is passed over in
silence exactly if what stands in front of the first question mark is none of our files. -/
theorem loadGraph_of_mem_templateFiles (project : Project) (workingDirectory : FilePath)
    (names : List Text) :
    ∀ template ∈ templateFiles project workingDirectory names,
      ((∃ path, path.Same template ∧ project.Asks template.text path .template) ↔
        '?' ∉ template.text) ∧
      ('?' ∉ template.text →
        project.Asks template.text template .template ∧
          ∀ files session n, (loadGraph project files template session).1.result = .ok n → 1 ≤ n) ∧
      ∀ files session, PassesOver project files template session ↔
        project.settings.IsForeign (ModuleId.pathOf template.text) := by
  intro template hmem
  have htemplate := (List.mem_filter.mp hmem).2
  refine ⟨Project.asks_text_iff htemplate, fun hmark => ?_, fun files session => passesOver_iff⟩
  have hasks := Project.asks_text_of_not_mem htemplate hmark
  refine ⟨hasks, fun files session n hresult => ?_⟩
  rw [Nat.one_le_iff_ne_zero]
  rintro rfl
  obtain ⟨next, hload⟩ := result_loadGraph_eq_zero_iff.mp hresult
  exact Session.load_ne_none hasks hload

/-- A file in another directory than its name says, beside one with a question mark in its name. -/
theorem loadGraph_of_card :
    let project := Project.standard plainSettings
    let names : List Text := ["./a/../card.html", "what?.html"]
    let card : FilePath := ⟨"/card.html"⟩
    card ∈ templateFiles project ⟨"/"⟩ names ∧ '?' ∉ card.text ∧
      project.Asks card.text card .template ∧
      (∀ files session n, (loadGraph project files card session).1.result = .ok n → 1 ≤ n) ∧
      (loadGraph project cardTree card .fresh).1.result = .ok 1 := by
  intro project names card
  have hmem : card ∈ templateFiles project ⟨"/"⟩ names := by decide
  have hmark : '?' ∉ card.text := by decide
  obtain ⟨hasks, hcounted⟩ :=
    (loadGraph_of_mem_templateFiles project ⟨"/"⟩ names card hmem).2.1 hmark
  exact ⟨hmem, hmark, hasks, hcounted, by decide +kernel⟩

/-- A template with a question mark in its name is kept, but its text asks for a file without an
extension, so it is passed over, whether or not it is there. -/
theorem passesOver_template_with_mark :
    let project := Project.standard plainSettings
    let template : FilePath := ⟨"/srv/kiln-work/what?.html"⟩
    template ∈ templateFiles project ⟨"/srv/kiln-work"⟩ ["what?.html".toList] ∧
      ¬project.Asks template.text template .template ∧
      ∀ files session, loadGraph project files template session = (⟨.ok 0, []⟩, session) := by
  intro project template
  refine ⟨by decide, ?_, fun files session => ?_⟩
  · intro hasks
    exact absurd hasks.path_eq (by decide)
  · have hforeign : project.settings.IsForeign (ModuleId.pathOf template.text) :=
      Settings.handles_eq_false_iff.mp (by decide)
    exact loadGraph_of_none (Session.load_of_isForeign hforeign)

end Command

end ComponentLoader
