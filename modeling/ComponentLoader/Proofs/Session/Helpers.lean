import ComponentLoader.Proofs.Session.Answers
set_option autoImplicit false

/-!
# Templates and the helpers that they import (SPEC §1, §4.4)

The module of a template imports the helpers that its markup calls, from the files that exported
them when it was compiled.  Its entry does not record those files, so a session keeps the module
through passes in which they change.  Main statement: what is answered agrees with a new session
exactly when the index of the origin and that of the present helper files give the template the same
imports.  An explicit run shows that they need not.
-/

namespace ComponentLoader

/-- The statements with which the module of a parsed template imports
helpers, as they are written. -/
def Project.helperImports (project : Project) (helpers : HelperIndex) (parsed : ParsedTemplate) :
    Text :=
  Statement.code (Generate.helperStatements helpers.symbols
    (Generate.exportedMarkup project.settings.template parsed.body))

/-- The template at a path, if there is one, imports the same helpers with both indexes. -/
def Project.SameImports (project : Project) (files : FileTree) (path : FilePath)
    (helpers helpers' : HelperIndex) : Prop :=
  ∀ source parsed, files.readText path = .ok source →
    (project.toolchain.parser source).result = .ok parsed →
    project.helperImports helpers parsed = project.helperImports helpers' parsed

section

variable {project : Project} {helpers helpers' : HelperIndex} {path : FilePath}

/-- Two indexes give a template the same code if and only if they give it the same imports. -/
theorem Compile.code_ofParsed_eq_iff (source : Text) (warnings : List TemplateWarning)
    (parsed : ParsedTemplate) :
    (Compile.ofParsed project.settings helpers path source warnings parsed).code =
        (Compile.ofParsed project.settings helpers' path source warnings parsed).code ↔
      project.helperImports helpers parsed = project.helperImports helpers' parsed := by
  simp only [Compile.ofParsed, Compile.statements, Generate.statements, Compile.moduleConfig,
    Project.helperImports, Statement.code_append, List.append_assoc]
  rw [List.append_cancel_left_eq, List.append_cancel_left_eq, List.append_cancel_left_eq,
    List.append_cancel_right_eq]

/-- Two indexes give a template the same module if and only if they give it the same imports. -/
theorem Project.isTemplate_iff_sameImports {files : FileTree} :
    (∀ loaded, project.IsTemplate ⟨files, helpers⟩ path loaded ↔
        project.IsTemplate ⟨files, helpers'⟩ path loaded) ↔
      project.SameImports files path helpers helpers' := by
  constructor
  · intro hsame source parsed hsource hparsed
    have hcompiled : project.compileIn ⟨files, helpers⟩ path = .ok _ :=
      compileIn_eq_ok_iff.mpr ⟨source, parsed, hsource, hparsed, rfl⟩
    have hcompiled' : project.compileIn ⟨files, helpers'⟩ path = .ok _ :=
      compileIn_eq_ok_iff.mpr ⟨source, parsed, hsource, hparsed, rfl⟩
    have hloaded := (hsame _).mp ⟨_, hcompiled, rfl⟩
    have heq := hloaded.unique ⟨_, hcompiled', rfl⟩
    have hcode := congrArg LoadedModule.contents heq
    exact (Compile.code_ofParsed_eq_iff source (project.toolchain.parser source).warnings
      parsed).mp hcode
  · intro hsame loaded
    have htransfer : ∀ helpers helpers' : HelperIndex,
        project.SameImports files path helpers helpers' →
        project.IsTemplate ⟨files, helpers⟩ path loaded →
        project.IsTemplate ⟨files, helpers'⟩ path loaded := by
      intro helpers helpers' hsame hloaded
      obtain ⟨compiled, hcompiled, rfl⟩ := hloaded
      obtain ⟨source, parsed, hsource, hparsed, rfl⟩ := compileIn_eq_ok_iff.mp hcompiled
      refine ⟨_, compileIn_eq_ok_iff.mpr ⟨source, parsed, hsource, hparsed, rfl⟩, ?_⟩
      have hcode : (Compile.ofParsed project.settings helpers path source
            (project.toolchain.parser source).warnings parsed).code =
          (Compile.ofParsed project.settings helpers' path source
            (project.toolchain.parser source).warnings parsed).code :=
        (Compile.code_ofParsed_eq_iff source _ parsed).mpr (hsame source parsed hsource hparsed)
      unfold CompiledTemplate.loaded
      rw [hcode]
      rfl
    refine ⟨htransfer helpers helpers' hsame, htransfer helpers' helpers ?_⟩
    exact fun source parsed hsource hparsed => (hsame source parsed hsource hparsed).symm

end

section

variable {project : Project} {seen : List Scene} {phase : Phase} {moment : Moment} {id : Text}
  {path : FilePath}

/-- A grounded session answers for a template what the present text has with the helpers of its
origin. -/
theorem Moment.Grounded.answers_template_iff (h : moment.Grounded project seen phase)
    (htell : StampsTellContents seen) (unchanged : phase ≠ .edited)
    (hasks : project.Asks id path .template) {origin : Scene} (hseen : origin ∈ seen)
    (horigin : origin.Origin project moment.scene moment.session.templates path)
    (loaded : Option LoadedModule) :
    moment.Answers project id loaded ↔
      ∃ template, project.IsTemplate ⟨moment.files, origin.helpers⟩ path template ∧
        loaded = some template := by
  unfold Moment.Answers
  rw [Session.load_of_asks hasks]
  exact ((Session.triple_loadTemplate (h.follows htell) h.templates hseen horigin).weaken
    (fun _ _ hafter => hafter.1) fun _ hfailed => hfailed.2).answers_some_iff
    (fun _ _ hloaded hloaded' => hloaded.unique hloaded') (h.stands unchanged)

/-- A new session answers for a template, after it began a pass, what the template has with the
helpers of that pass. -/
theorem answers_template_iff_of_fresh {files : FileTree}
    (hasks : project.Asks id path .template) {loaded : Option LoadedModule} :
    ((Moment.fresh files).next project .buildStart).Answers project id loaded ↔
      ∃ template, project.IsTemplate ((Moment.fresh files).next project .buildStart).scene path
          template ∧ loaded = some template := by
  have hfresh := Moment.Grounded.fresh project files
  have htellFresh := stampsTellContents_fresh files
  have hopened : Phase.opened ≠ .edited := fun hphase => (nomatch hphase)
  have hbegun : ((Moment.fresh files).next project .buildStart).Grounded project
      [((Moment.fresh files).next project .buildStart).scene, (Moment.fresh files).scene] .opened :=
    hfresh.buildStart fun hphase => (nomatch hphase)
  have htellBegun : StampsTellContents
      [((Moment.fresh files).next project .buildStart).scene, (Moment.fresh files).scene] :=
    htellFresh.cons_same List.mem_cons_self rfl
  -- nothing is kept yet, so the template is compiled in the scene of this pass
  have hnone : ∀ entry : TemplateEntry,
      ¬ entry.Current ((Moment.fresh files).next project .buildStart).scene
        ((Moment.fresh files).next project .buildStart).session.templates path := by
    intro entry hcurrent
    have hkept := hcurrent.1
    rw [Moment.templates_fresh_buildStart] at hkept
    cases hkept
  obtain ⟨origin, hseen, horigin⟩ := Scene.exists_origin hbegun.mem hbegun.templates path
  have hanswers := hbegun.answers_template_iff htellBegun hopened hasks hseen horigin loaded
  rw [horigin.new hnone] at hanswers
  exact hanswers

/-- A session that keeps templates answers for one what its present text has with the helpers of its
origin, and agrees with a new session on the present files exactly if these and the helpers of a new
pass give the template the same imports. -/
theorem answers_template_iff_scanned {settings : Settings}
    (run : Run (.standard settings) seen phase moment) (unchanged : phase ≠ .edited)
    (htell : StampsTellContents seen)
    (hasks : (Project.standard settings).Asks id path .template) :
    let project := Project.standard settings
    let scanned := (Moment.fresh moment.files).next project .buildStart
    ∃ origin ∈ seen, origin.Origin project moment.scene moment.session.templates path ∧
      (∀ loaded, moment.Answers project id loaded ↔
        ∃ template, project.IsTemplate ⟨moment.files, origin.helpers⟩ path template ∧
          loaded = some template) ∧
      ((∀ loaded, moment.Answers project id loaded ↔ scanned.Answers project id loaded) ↔
        project.SameImports moment.files path origin.helpers scanned.session.helpers) ∧
      (phase = .scanned → moment.session.helpers = scanned.session.helpers) := by
  intro project scanned
  have hreports := Project.reportsReads_standard settings
  have hgrounded := run.grounded hreports htell
  obtain ⟨origin, hseen, horigin⟩ := Scene.exists_origin hgrounded.mem hgrounded.templates path
  refine ⟨origin, hseen, horigin,
    hgrounded.answers_template_iff htell unchanged hasks hseen horigin, ?_, ?_⟩
  · have hanswers : (∀ loaded, moment.Answers project id loaded ↔
          scanned.Answers project id loaded) ↔
        ∀ template, project.IsTemplate ⟨moment.files, origin.helpers⟩ path template ↔
          project.IsTemplate scanned.scene path template := by
      simp only [hgrounded.answers_template_iff htell unchanged hasks hseen horigin,
        answers_template_iff_of_fresh hasks, project, scanned]
      constructor
      · intro h template
        simpa using h (some template)
      · intro h loaded
        simp only [h]
    rw [hanswers]
    exact Project.isTemplate_iff_sameImports
  · intro hphase
    obtain ⟨scan, hscan, hhelpers⟩ := hgrounded.helpers hphase
    obtain ⟨-, -, -, hscanned⟩ := Session.after_buildStart project moment.files .fresh
    exact hhelpers.trans (hscanned scan hscan).symm

end

/-! ## A helper that is renamed -/

/-- A project with one file of helpers. -/
def helperProject : Project :=
  .standard { plainSettings with helpers := [⟨"h.ts"⟩] }

/-- A template that calls a helper, and the file that exports it. -/
def helperTree : FileTree where
  entries := [
    ([], ⟨1, 0, .directory⟩),
    (["card.html".toList], ⟨2, 0, .file (Text.utf8 "<p>\x7b\x7b fmt(1) \x7d\x7d</p>")⟩),
    (["h.ts".toList], ⟨3, 0, .file (Text.utf8 "export function fmt() \x7b\x7d\n")⟩)]
  workingNames := []
  nextInode := 4
  clock := 1

/-- The first pass has begun. -/
def firstPass : Moment :=
  (Moment.fresh helperTree).next helperProject .buildStart

/-- The template was loaded in the first pass. -/
def firstLoad : Moment :=
  firstPass.next helperProject (.load "card.html")

/-- The helper has another name now. -/
def helperRenamed : Moment :=
  firstLoad.next helperProject
    (.edit (.write ⟨"h.ts"⟩ (Text.utf8 "export function format() \x7b\x7d\n") 2))

/-- The second pass has begun. -/
def secondPass : Moment :=
  helperRenamed.next helperProject .buildStart

/-- The scenes up to the second pass. -/
def secondPassScenes : List Scene :=
  [secondPass.scene, helperRenamed.scene, firstLoad.scene, firstPass.scene,
    (Moment.fresh helperTree).scene]

theorem run_secondPass : Run helperProject secondPassScenes .scanned secondPass := by
  have hexists : helperTree.isFile ⟨"h.ts"⟩ = true := by decide +kernel
  have hfirstPass : Run helperProject [firstPass.scene, (Moment.fresh helperTree).scene] .scanned
      firstPass := .step (.start helperTree) (.buildStart (by decide +kernel))
  have hfirstLoad : Run helperProject
      [firstLoad.scene, firstPass.scene, (Moment.fresh helperTree).scene] .scanned firstLoad :=
    .step hfirstPass (.load fun hphase => (nomatch hphase))
  have hrenamed : Run helperProject [helperRenamed.scene, firstLoad.scene, firstPass.scene,
      (Moment.fresh helperTree).scene] .edited helperRenamed :=
    .step hfirstLoad (.edit hexists)
  exact .step hrenamed (.buildStart (by decide +kernel))

theorem stampsTellContents_secondPass : StampsTellContents secondPassScenes :=
  stampsTellContents_of_entries (by decide +kernel)

theorem asks_card : helperProject.Asks "card.html" ⟨"card.html"⟩ .template :=
  ⟨⟨⟨"card.html"⟩, none⟩, by rfl, by rfl, by decide +kernel⟩

/-- The module of the template as it was in the first pass. -/
def firstModule : LoadedModule where
  contents := "import \x7b fmt \x7d from \"h.ts\";\n" ++
    "const template = \"<p>\x7b\x7b fmt(1) \x7d\x7d</p>\";\n" ++
    "export const name = \"card\";\nexport const scope = \"s\";\n" ++
    "export default \x7b name, scope, template \x7d;\n"
  loader := .script

theorem answers_secondPass :
    secondPass.Answers helperProject "card.html" (some firstModule) := by decide +kernel

theorem not_answers_fresh :
    ¬ ((Moment.fresh secondPass.files).next helperProject .buildStart).Answers helperProject
      "card.html" (some firstModule) := by decide +kernel

/-- The kept template has the helpers of its origin, and these are not those of the second pass. -/
theorem exists_origin_secondPass :
    Run helperProject secondPassScenes .scanned secondPass ∧ Phase.scanned ≠ .edited ∧
      StampsTellContents secondPassScenes ∧
      helperProject.Asks "card.html" ⟨"card.html"⟩ .template ∧
      ∃ origin ∈ secondPassScenes,
        origin.Origin helperProject secondPass.scene secondPass.session.templates ⟨"card.html"⟩ ∧
        ¬ helperProject.SameImports secondPass.files ⟨"card.html"⟩ origin.helpers
          secondPass.session.helpers := by
  have unchanged : Phase.scanned ≠ .edited := fun hphase => (nomatch hphase)
  obtain ⟨origin, hseen, horigin, -, hagrees, hhelpers⟩ := answers_template_iff_scanned
    run_secondPass unchanged stampsTellContents_secondPass asks_card
  refine ⟨run_secondPass, unchanged, stampsTellContents_secondPass, asks_card, origin, hseen,
    horigin, ?_⟩
  intro hsame
  rw [hhelpers rfl] at hsame
  exact not_answers_fresh ((hagrees.mpr hsame (some firstModule)).mp answers_secondPass)

/-- In the second pass the template still imports the helper under its old name, which a new session
on the same files does not answer. -/
theorem answers_renamed_helper :
    Run helperProject secondPassScenes .scanned secondPass ∧
      StampsTellContents secondPassScenes ∧
      helperProject.Asks "card.html" ⟨"card.html"⟩ .template ∧
      secondPass.Answers helperProject "card.html" (some firstModule) ∧
      ¬ ((Moment.fresh secondPass.files).next helperProject .buildStart).Answers helperProject
        "card.html" (some firstModule) :=
  ⟨run_secondPass, stampsTellContents_secondPass, asks_card, answers_secondPass,
    not_answers_fresh⟩

end ComponentLoader
