import ComponentLoader.Proofs.Helper.Definition
import ComponentLoader.Proofs.Session.Failure
set_option autoImplicit false

/-!
# Beginning a pass (SPEC §4.5)

A pass begins with the identities forgotten, whatever comes of the helper files.  If all of these
can be read, the index of helpers is made anew from what they define; if one cannot, the pass keeps
the old index and nothing is said of the files that were read before it.
-/

namespace ComponentLoader

open HelperDefinition

/-- Of some files, either all can be read or there is a first one that cannot. -/
theorem FileTree.exists_unreadable {files : FileTree} {paths : List FilePath}
    (h : ¬files.Readable paths) :
    ∃ before path after fault, paths = before ++ path :: after ∧ files.Readable before ∧
      files.readText path = .error fault := by
  induction paths with
  | nil => exact absurd (fun path hmem => (nomatch hmem)) h
  | cons path rest ih =>
      cases hread : files.readText path with
      | error fault => exact ⟨[], path, rest, fault, rfl, fun _ hmem => (nomatch hmem), hread⟩
      | ok text =>
          have hrest : ¬files.Readable rest := fun hrest =>
            h (List.forall_mem_cons.mpr ⟨⟨text, hread⟩, hrest⟩)
          obtain ⟨before, found, after, fault, rfl, hbefore, hfault⟩ := ih hrest
          exact ⟨path :: before, found, after, fault, rfl,
            List.forall_mem_cons.mpr ⟨⟨text, hread⟩, hbefore⟩, hfault⟩

namespace Session

variable {project : Project} {files : FileTree} (session : Session)

theorem buildStart_of_ok {scan : HelperScan}
    (h : scanHelpers project.toolchain.exports files project.settings.helpers = .ok scan) :
    buildStart project files session =
      .ok () { session with
        identities := .empty
        helpers := scan.index
        sink := ⟨session.sink.held ++ scan.warnings⟩ } := by
  unfold buildStart
  simp only [run_bind, run_modify, h]
  rw [← DiagnosticSink.held_emitAll]

theorem buildStart_of_error {e : TemplateError}
    (h : scanHelpers project.toolchain.exports files project.settings.helpers = .error e) :
    buildStart project files session =
      .error (.template e) { session with identities := .empty } := by
  unfold buildStart
  simp only [run_bind, run_modify, h, run_throw]

end Session

/-- A pass begins with an index in which every name is that of the first helper file that exports
it, and with one more warning for every later definition; or, if a helper file cannot be read, with
an error and with all that the session had but the identities. -/
theorem buildStart_replaces_or_keeps (project : Project) (moment : Moment) :
    let helpers := project.settings.helpers
    let exports := project.toolchain.exports
    let next := (moment.next project .buildStart).session
    (moment.files.Readable helpers →
      Session.Answers (Session.buildStart project moment.files) moment.session () ∧
      ∃ index warnings,
        next = { moment.session with
          identities := .empty
          helpers := index
          sink := ⟨moment.session.sink.held ++ warnings⟩ } ∧
        (∀ name, index.get? name =
          helpers.find? fun path => name ∈ namesIn exports moment.files path) ∧
        index.symbols.Sorted ∧
        warnings = HelperDefinition.warnings (ofFiles exports moment.files helpers) ∧
        ∀ warning ∈ warnings, warning.severity = .warning ∧ warning.code.text = "W003") ∧
    (¬moment.files.Readable helpers →
      ∃ before path after fault, helpers = before ++ path :: after ∧
        moment.files.Readable before ∧ moment.files.readText path = .error fault ∧
        Session.Fails (Session.buildStart project moment.files) moment.session
          (.template (.unreadable path fault)) ∧
        next = { moment.session with identities := .empty }) := by
  intro helpers exports next
  have hnext : next = Session.after (Session.buildStart project moment.files) moment.session := rfl
  rw [Session.after_eq_left] at hnext
  refine ⟨fun hreadable => ?_, fun hunreadable => ?_⟩
  · obtain ⟨scan, hscan, hscanned⟩ := scanHelpers_of_readable exports hreadable
    have hrun := Session.buildStart_of_ok moment.session hscan
    rw [hrun] at hnext
    refine ⟨⟨_, hrun⟩, scan.index, scan.warnings, hnext, fun name => ?_, hscanned.sorted,
      hscanned.warnings, ?_⟩
    · rw [hscanned.index, firstFile?_ofFiles]
    · rw [hscanned.warnings]
      exact fun warning => code_of_mem_warnings
  · obtain ⟨before, path, after, fault, hhelpers, hbefore, hpath⟩ :=
      FileTree.exists_unreadable hunreadable
    have hscan := scanHelpers_of_unreadable exports hbefore hpath after
    rw [← hhelpers] at hscan
    have hrun := Session.buildStart_of_error moment.session hscan
    rw [hrun] at hnext
    exact ⟨before, path, after, fault, hhelpers, hbefore, hpath, ⟨_, hrun⟩, hnext⟩

/-! ## Two helper files -/

/-- A project with two files of helpers. -/
def twoHelpersProject : Project :=
  .standard { plainSettings with helpers := [⟨"a.ts"⟩, ⟨"b.ts"⟩] }

/-- Both files export one of the names. -/
def twoHelpersTree : FileTree where
  entries := [
    ([], ⟨1, 0, .directory⟩),
    (["a.ts".toList], ⟨2, 0, .file (Text.utf8 "export \x7b x, fmt \x7d\n")⟩),
    (["b.ts".toList], ⟨3, 0, .file (Text.utf8 "export \x7b fmt, x as y \x7d\n")⟩)]
  workingNames := []
  nextInode := 4
  clock := 1

/-- In a second pass the warning is given again.  Without the second file no pass begins, and the
session keeps the helpers of both. -/
theorem buildStart_replaces_or_keeps_twoHelpers :
    let project := twoHelpersProject
    let first := (Moment.fresh twoHelpersTree).next project .buildStart
    let removed := first.next project (.edit (.remove ⟨"b.ts"⟩))
    first.files.Readable project.settings.helpers ∧
      (first.next project .buildStart).session.helpers.get? "fmt" = some ⟨"a.ts"⟩ ∧
      (first.next project .buildStart).session.sink.held =
        first.session.sink.held ++ [{
          severity := .warning
          code := ⟨.warning, 3⟩
          message := "helper `fmt` is already defined"
          file := some ⟨"b.ts"⟩
          location := none
          notes := ["first defined in a.ts"] }] ∧
      ¬removed.files.Readable project.settings.helpers ∧
      (removed.next project .buildStart).session =
        { removed.session with identities := .empty } := by
  intro project first removed
  have hreadable : first.files.Readable project.settings.helpers :=
    List.forall_mem_cons.mpr ⟨⟨_, by rfl⟩,
      List.forall_mem_cons.mpr ⟨⟨_, by rfl⟩, fun _ hmem => (nomatch hmem)⟩⟩
  have hunreadable : ¬removed.files.Readable project.settings.helpers := by
    intro h
    obtain ⟨text, htext⟩ := h ⟨"b.ts"⟩ (List.mem_cons_of_mem _ List.mem_cons_self)
    have hmissing : removed.files.readText ⟨"b.ts"⟩ = .error .missing := by rfl
    rw [hmissing] at htext
    cases htext
  obtain ⟨-, index, warnings, hnext, hindex, -, hwarnings, -⟩ :=
    (buildStart_replaces_or_keeps project first).1 hreadable
  obtain ⟨before, path, after, fault, -, -, -, -, hkept⟩ :=
    (buildStart_replaces_or_keeps project removed).2 hunreadable
  refine ⟨hreadable, ?_, ?_, hunreadable, hkept⟩
  · rw [hnext]
    exact (hindex "fmt").trans (by decide +kernel)
  · rw [hnext]
    show first.session.sink.held ++ warnings = _
    rw [hwarnings]
    exact congrArg (first.session.sink.held ++ ·) (by decide +kernel)

end ComponentLoader
