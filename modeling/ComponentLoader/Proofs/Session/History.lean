import ComponentLoader.Proofs.FileTree.Change
import ComponentLoader.Proofs.Session.Load
set_option autoImplicit false

/-!
# Histories of a session (SPEC §3)

A history is a sequence of events: changes to files and steps of a session.  It is a `Run` if every
change is an update of a path that exists, and if no file changes between the beginning of a pass
and its last load.  A run carries the scenes that it went through, the present one first.

What one event preserves is `Moment.Grounded.step`, what a whole run preserves is
`Run.grounded`: the entries of the session were made in scenes of the run, and within a pass its
identities are those of the files.
-/

namespace ComponentLoader

/-- The files and the session at one time. -/
structure Moment where
  files : FileTree
  session : Session

/-- What happens to the files or to the session. -/
inductive Event where
  | edit (change : FileEdit)
  | buildStart
  | clearCaches
  | takeDiagnostics
  | load (id : Text)

namespace Moment

/-- Some files with a session in which nothing has been asked for. -/
def fresh (files : FileTree) : Moment := ⟨files, .fresh⟩

/-- What the session works on. -/
def scene (moment : Moment) : Scene := ⟨moment.files, moment.session.helpers⟩

/-- The moment after an event. -/
def next (project : Project) (moment : Moment) : Event → Moment
  | .edit change => ⟨moment.files.edit change, moment.session⟩
  | .buildStart =>
    ⟨moment.files, Session.after (Session.buildStart project moment.files) moment.session⟩
  | .clearCaches => ⟨moment.files, moment.session.clearCaches⟩
  | .takeDiagnostics => ⟨moment.files, moment.session.takeDiagnostics.2⟩
  | .load id => ⟨moment.files, Session.after (Session.load project moment.files id) moment.session⟩

/-- A load of this id answers this module, or that there is none. -/
def Answers (project : Project) (moment : Moment) (id : Text)
    (loaded : Option LoadedModule) : Prop :=
  Session.Answers (Session.load project moment.files id) moment.session loaded

instance (project : Project) (moment : Moment) (id : Text) (loaded : Option LoadedModule) :
    Decidable (moment.Answers project id loaded) :=
  inferInstanceAs (Decidable (Session.Answers _ _ _))

/-- A load of this id reports this error. -/
def Fails (project : Project) (moment : Moment) (id : Text) (e : LoadError) : Prop :=
  Session.Fails (Session.load project moment.files id) moment.session e

instance (project : Project) (moment : Moment) (id : Text) (e : LoadError) :
    Decidable (moment.Fails project id e) :=
  inferInstanceAs (Decidable (Session.Fails _ _ _))

end Moment

/-! ## Runs -/

/-- What a session knows about the present files. -/
inductive Phase where
  /-- no file changed since the identities were forgotten -/
  | opened
  /-- neither did one, and the helper index is that of the present files -/
  | scanned
  /-- some file changed -/
  | edited
  deriving DecidableEq, Repr

/-- The events that a run may have in a phase, with the phase after each of them. -/
inductive Moment.Permits (project : Project) (moment : Moment) : Phase → Event → Phase → Prop where
  | edit {phase : Phase} {change : FileEdit} (updates : change.Updates moment.files) :
      Permits project moment phase (.edit change) .edited
  | buildStart {phase : Phase}
      (answered : Session.Answers (Session.buildStart project moment.files) moment.session ()) :
      Permits project moment phase .buildStart .scanned
  | buildStartFailed {phase : Phase}
      (failed : ¬ Session.Answers (Session.buildStart project moment.files) moment.session ()) :
      Permits project moment phase .buildStart .opened
  | clearCaches {phase : Phase} : Permits project moment phase .clearCaches phase
  | takeDiagnostics {phase : Phase} : Permits project moment phase .takeDiagnostics phase
  | load {phase : Phase} {id : Text} (unchanged : phase ≠ .edited) :
      Permits project moment phase (.load id) phase

/-- The moments that can be reached from some files and a fresh session, with the scenes on the
way. -/
inductive Run (project : Project) : List Scene → Phase → Moment → Prop where
  | start (files : FileTree) :
      Run project [(Moment.fresh files).scene] .opened (Moment.fresh files)
  | step {seen : List Scene} {phase phase' : Phase} {moment : Moment} {event : Event}
      (run : Run project seen phase moment)
      (permitted : moment.Permits project phase event phase') :
      Run project ((moment.next project event).scene :: seen) phase' (moment.next project event)

/-- At no path does the same stamp stand for different contents in two of the scenes. -/
def StampsTellContents (seen : List Scene) : Prop :=
  ∀ scene ∈ seen, ∀ other ∈ seen, scene.files.StampsTell other.files

theorem stampsTellContents_of_entries {seen : List Scene}
    (h : ∀ scene ∈ seen, ∀ other ∈ seen, ∀ entry ∈ scene.files.entries,
      ∀ entry' ∈ other.files.entries, FileTree.stampOf entry.2 = FileTree.stampOf entry'.2 →
        entry.2.content = entry'.2.content) : StampsTellContents seen :=
  fun scene hscene other hother => FileTree.stampsTell_of_entries (h scene hscene other hother)

/-! ## Beginning a pass -/

theorem Session.answers_buildStart_iff {project : Project} {files : FileTree} {session : Session} :
    Answers (buildStart project files) session () ↔
      ∃ scan, scanHelpers project.toolchain.exports files project.settings.helpers = .ok scan := by
  unfold Answers buildStart
  cases hscan : scanHelpers project.toolchain.exports files project.settings.helpers with
  | error e =>
      constructor
      · intro h
        obtain ⟨next, hnext⟩ := h
        cases hnext
      · intro h
        obtain ⟨scan, hscan⟩ := h
        cases hscan
  | ok scan => exact ⟨fun _ => ⟨scan, rfl⟩, fun _ => ⟨_, rfl⟩⟩

/-- A pass begins without identities, and with the present helpers if their files can be read. -/
theorem Session.after_buildStart (project : Project) (files : FileTree) (session : Session) :
    (after (buildStart project files) session).identities = .empty ∧
      (after (buildStart project files) session).templates = session.templates ∧
      (after (buildStart project files) session).stylesheets = session.stylesheets ∧
      ∀ scan, scanHelpers project.toolchain.exports files project.settings.helpers = .ok scan →
        (after (buildStart project files) session).helpers = scan.index := by
  unfold after buildStart
  cases hscan : scanHelpers project.toolchain.exports files project.settings.helpers with
  | error e => exact ⟨rfl, rfl, rfl, fun scan h => (nomatch h)⟩
  | ok scan =>
      refine ⟨rfl, rfl, rfl, ?_⟩
      intro scan' hscan'
      cases hscan'
      rfl

theorem Moment.templates_fresh_buildStart (project : Project) (files : FileTree) :
    ((Moment.fresh files).next project .buildStart).session.templates = .empty :=
  (Session.after_buildStart project files .fresh).2.1

/-! ## What runs preserve -/

/-- All that the session keeps was made in scenes of a run, from which nothing was created, and it
knows about the present files what the phase says. -/
structure Moment.Grounded (moment : Moment) (project : Project) (seen : List Scene)
    (phase : Phase) :
    Prop where
  mem : moment.scene ∈ seen
  within : ∀ scene ∈ seen, moment.files.Within scene.files
  templates : project.TemplatesFrom seen moment.session.templates
  stylesheets : project.StylesheetsFrom seen moment.session.stylesheets
  identities : phase ≠ .edited → moment.session.identities.Holds moment.files
  helpers : phase = .scanned → ∃ scan,
    scanHelpers project.toolchain.exports moment.files project.settings.helpers = .ok scan ∧
      moment.session.helpers = scan.index

namespace Moment.Grounded

variable {project : Project} {seen : List Scene} {phase phase' : Phase} {moment : Moment}

theorem follows (h : moment.Grounded project seen phase) (htell : StampsTellContents seen) :
    moment.scene.Follows seen :=
  ⟨h.mem, h.within, htell moment.scene h.mem⟩

theorem stands (h : moment.Grounded project seen phase) (hphase : phase ≠ .edited) :
    moment.session.Stands moment.scene moment.session.templates moment.session.stylesheets :=
  ⟨rfl, h.identities hphase, rfl, rfl⟩

theorem session_grounded (h : moment.Grounded project seen phase) (hphase : phase ≠ .edited) :
    moment.session.Grounded project seen moment.scene :=
  ⟨_, _, h.stands hphase, h.templates, h.stylesheets⟩

theorem fresh (project : Project) (files : FileTree) :
    (Moment.fresh files).Grounded project [(Moment.fresh files).scene] .opened where
  mem := List.mem_cons_self
  within := by
    intro scene hscene
    rw [List.mem_singleton.mp hscene]
    exact .refl files
  templates := Project.templatesFrom_empty
  stylesheets := Project.stylesheetsFrom_empty
  identities := fun _ => IdentityMemo.holds_empty files
  helpers := fun h => (nomatch h)

theorem within_cons (h : moment.Grounded project seen phase) {next : Moment}
    (hfiles : next.files.Within moment.files) :
    ∀ scene ∈ next.scene :: seen, next.files.Within scene.files := by
  intro scene hscene
  rcases List.mem_cons.mp hscene with rfl | hscene
  · exact .refl next.files
  · exact hfiles.trans (h.within scene hscene)

theorem edit (h : moment.Grounded project seen phase) {change : FileEdit}
    (updates : change.Updates moment.files) :
    (moment.next project (.edit change)).Grounded project
      ((moment.next project (.edit change)).scene :: seen) .edited where
  mem := List.mem_cons_self
  within := h.within_cons (FileTree.within_edit updates)
  templates := h.templates.mono fun _ => List.mem_cons_of_mem _
  stylesheets := h.stylesheets.mono fun _ => List.mem_cons_of_mem _
  identities := fun hphase => absurd rfl hphase
  helpers := fun hphase => (nomatch hphase)

/-- A pass begins with what is kept and forgets the identities, whether or not the helpers can be
read. -/
theorem buildStart (h : moment.Grounded project seen phase)
    (hscanned : phase' = .scanned →
      Session.Answers (Session.buildStart project moment.files) moment.session ()) :
    (moment.next project .buildStart).Grounded project
      ((moment.next project .buildStart).scene :: seen) phase' := by
  obtain ⟨hidentities, htemplates, hstylesheets, hhelpers⟩ :=
    Session.after_buildStart project moment.files moment.session
  refine ⟨List.mem_cons_self, h.within_cons (.refl moment.files), ?_, ?_, ?_, ?_⟩
  · exact htemplates.symm ▸ h.templates.mono fun _ => List.mem_cons_of_mem _
  · exact hstylesheets.symm ▸ h.stylesheets.mono fun _ => List.mem_cons_of_mem _
  · intro _
    exact hidentities.symm ▸ IdentityMemo.holds_empty moment.files
  · intro hphase
    obtain ⟨scan, hscan⟩ := Session.answers_buildStart_iff.mp (hscanned hphase)
    exact ⟨scan, hscan, hhelpers scan hscan⟩

theorem clearCaches (h : moment.Grounded project seen phase) :
    (moment.next project .clearCaches).Grounded project
      ((moment.next project .clearCaches).scene :: seen) phase where
  mem := List.mem_cons_self
  within := h.within_cons (.refl moment.files)
  templates := Project.templatesFrom_empty
  stylesheets := Project.stylesheetsFrom_empty
  identities := h.identities
  helpers := h.helpers

theorem takeDiagnostics (h : moment.Grounded project seen phase) :
    (moment.next project .takeDiagnostics).Grounded project
      ((moment.next project .takeDiagnostics).scene :: seen) phase where
  mem := List.mem_cons_self
  within := h.within_cons (.refl moment.files)
  templates := h.templates.mono fun _ => List.mem_cons_of_mem _
  stylesheets := h.stylesheets.mono fun _ => List.mem_cons_of_mem _
  identities := h.identities
  helpers := h.helpers

theorem load (hreports : project.toolchain.pipeline.preprocessor.ReportsReads)
    (htell : StampsTellContents seen) (h : moment.Grounded project seen phase)
    (unchanged : phase ≠ .edited) (id : Text) :
    (moment.next project (.load id)).Grounded project
      ((moment.next project (.load id)).scene :: seen) phase := by
  have hafter := (Session.grounded_load hreports (h.follows htell) id).after_of
    (h.session_grounded unchanged)
  obtain ⟨templates, stylesheets, hstands, htemplates, hstylesheets⟩ := hafter
  refine ⟨List.mem_cons_self, h.within_cons (.refl moment.files), ?_, ?_,
    fun _ => hstands.identities, ?_⟩
  · exact hstands.templates.symm ▸ htemplates.mono fun _ => List.mem_cons_of_mem _
  · exact hstands.stylesheets.symm ▸ hstylesheets.mono fun _ => List.mem_cons_of_mem _
  · intro hphase
    obtain ⟨scan, hscan, hhelpers⟩ := h.helpers hphase
    exact ⟨scan, hscan, hstands.helpers.trans hhelpers⟩

/-- Every event that a run may have keeps a moment grounded. -/
theorem step (hreports : project.toolchain.pipeline.preprocessor.ReportsReads)
    (htell : StampsTellContents seen) (h : moment.Grounded project seen phase) {event : Event}
    (permitted : moment.Permits project phase event phase') :
    (moment.next project event).Grounded project ((moment.next project event).scene :: seen)
      phase' := by
  cases permitted with
  | edit updates => exact h.edit updates
  | buildStart answered => exact h.buildStart fun _ => answered
  | buildStartFailed failed => exact h.buildStart fun hphase => (nomatch hphase)
  | clearCaches => exact h.clearCaches
  | takeDiagnostics => exact h.takeDiagnostics
  | @load id unchanged => exact h.load hreports htell unchanged id

end Moment.Grounded

/-- Every moment of a run is grounded in the scenes of the run. -/
theorem Run.grounded {project : Project}
    (hreports : project.toolchain.pipeline.preprocessor.ReportsReads) {seen : List Scene}
    {phase : Phase} {moment : Moment} (run : Run project seen phase moment)
    (htell : StampsTellContents seen) : moment.Grounded project seen phase := by
  induction run with
  | start files => exact .fresh project files
  | step run permitted ih =>
      -- the scenes before the event are among those after it
      have hbefore : StampsTellContents _ := fun scene hscene other hother =>
        htell scene (List.mem_cons_of_mem _ hscene) other (List.mem_cons_of_mem _ hother)
      exact (ih hbefore).step hreports hbefore permitted

end ComponentLoader
