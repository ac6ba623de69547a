import ComponentLoader.Proofs.Session.History
set_option autoImplicit false

/-!
# Answers with and without a past (SPEC §4.5, §8)

When does a session that has kept results over many passes answer what a new one answers on the
present files?  For stylesheets always, and for inline resources as soon as the template is kept:
what is answered is specified by the files alone, and the past of the session shows in the work that
it does only.  Both statements are about every run, and a new session is the shortest of runs.
-/

namespace ComponentLoader

/-- The project of some settings with the tools that come with the library. -/
def Project.standard (settings : Settings) : Project :=
  ⟨settings, .standard⟩

theorem Project.reportsReads_standard (settings : Settings) :
    (Project.standard settings).toolchain.pipeline.preprocessor.ReportsReads :=
  reportsReads_inlineImports

theorem FileTree.StampsTell.refl (files : FileTree) : files.StampsTell files := by
  intro path node node' hfind hfind' _
  obtain rfl : node = node' := Except.ok.inj (hfind.symm.trans hfind')
  rfl

/-- A new session raises no question about stamps. -/
theorem stampsTellContents_fresh (files : FileTree) :
    StampsTellContents [(Moment.fresh files).scene] := by
  intro scene hscene other hother
  rw [List.mem_singleton.mp hscene, List.mem_singleton.mp hother]
  exact .refl files

/-- Neither does an event after which the files are the same. -/
theorem StampsTellContents.cons_same {seen : List Scene} (h : StampsTellContents seen)
    {scene next : Scene} (hscene : scene ∈ seen) (hfiles : next.files = scene.files) :
    StampsTellContents (next :: seen) := by
  intro first hfirst second hsecond
  rcases List.mem_cons.mp hfirst with rfl | hfirstSeen
  · rw [hfiles]
    rcases List.mem_cons.mp hsecond with rfl | hsecondSeen
    · rw [hfiles]
      exact .refl scene.files
    · exact h scene hscene second hsecondSeen
  · rcases List.mem_cons.mp hsecond with rfl | hsecondSeen
    · rw [hfiles]
      exact h first hfirstSeen scene hscene
    · exact h first hfirstSeen second hsecondSeen

section

variable {project : Project} {seen : List Scene} {phase : Phase} {moment : Moment} {id : Text}
  {path : FilePath}

/-! ## Stylesheets -/

/-- A grounded session answers for a stylesheet what the files specify. -/
theorem Moment.Grounded.answers_stylesheet_iff
    (hreports : project.toolchain.pipeline.preprocessor.ReportsReads)
    (h : moment.Grounded project seen phase) (htell : StampsTellContents seen)
    (unchanged : phase ≠ .edited) {scope : Option Text}
    (hasks : project.Asks id path (.stylesheet scope)) {loaded : Option LoadedModule} :
    moment.Answers project id loaded ↔
      ∃ stylesheet, project.IsStylesheet moment.files path scope stylesheet ∧
        loaded = some stylesheet := by
  unfold Moment.Answers
  rw [Session.load_of_asks hasks]
  have hload : Session.Triple (Session.Grounded · project seen moment.scene)
      (Session.loadStylesheet project moment.files id path scope)
      (fun stylesheet _ => project.IsStylesheet moment.files path scope stylesheet)
      (fun _ => ∀ stylesheet, ¬ project.IsStylesheet moment.files path scope stylesheet) := by
    apply Session.triple_of_grounded
    intro templates stylesheets _ hstylesheets
    exact (Session.triple_loadStylesheet hreports (h.follows htell) hstylesheets hasks).weaken
      (fun _ _ hafter => hafter.1) fun _ hfailed => hfailed.2
  exact hload.answers_some_iff (fun _ _ hloaded hloaded' => hloaded.unique hloaded')
    (h.session_grounded unchanged)

/-- Whatever a session has kept, and however often the files have changed between its passes, it
answers for a stylesheet what a new session answers on the present files. -/
theorem answers_stylesheet_iff_fresh {settings : Settings}
    (run : Run (.standard settings) seen phase moment) (unchanged : phase ≠ .edited)
    (htell : StampsTellContents seen) {scope : Option Text}
    (hasks : (Project.standard settings).Asks id path (.stylesheet scope))
    (loaded : Option LoadedModule) :
    moment.Answers (.standard settings) id loaded ↔
      (Moment.fresh moment.files).Answers (.standard settings) id loaded := by
  have hreports := Project.reportsReads_standard settings
  have hgrounded := run.grounded hreports htell
  have hfresh := Moment.Grounded.fresh (.standard settings) moment.files
  have htellFresh := stampsTellContents_fresh moment.files
  have hopened : Phase.opened ≠ .edited := fun hphase => (nomatch hphase)
  rw [hgrounded.answers_stylesheet_iff hreports htell unchanged hasks,
    hfresh.answers_stylesheet_iff hreports htellFresh hopened hasks]
  exact Iff.rfl

/-- Settings in which nothing is set but a fixed scope token. -/
def plainSettings : Settings where
  root := ⟨"/"⟩
  template := []
  templateExtensions := ["html"]
  helpers := []
  sourceMap := true
  componentName := Naming.componentName
  style := { preprocess := true, bundle := true, strategy := .byClass, scope := some fun _ => "s" }

/-- A stylesheet and a template that import another stylesheet. -/
def importTree : FileTree where
  entries := [
    ([], ⟨1, 0, .directory⟩),
    (["a.scss".toList], ⟨2, 0, .file (Text.utf8 "@import 'b';\n")⟩),
    (["b.scss".toList], ⟨3, 0, .file (Text.utf8 "u \x7b\x7d")⟩),
    (["c.html".toList],
      ⟨4, 0, .file (Text.utf8 "<p></p><style lang=\"scss\">@import 'b';</style>")⟩)]
  workingNames := []
  nextInode := 5
  clock := 1

/-- The id of the stylesheet at `a.scss` with a scope token. -/
def scopedStyleId : Text := "a.scss?type=componentStylesheet&scope=t"

/-- The stylesheet was kept, and what it imports has changed between the passes. -/
theorem answers_stylesheet_of_changed_import :
    let project := Project.standard plainSettings
    let first := (Moment.fresh importTree).next project (.load scopedStyleId)
    let edited := first.next project (.edit (.write ⟨"b.scss"⟩ (Text.utf8 "q \x7b\x7d") 5))
    let moment := edited.next project .buildStart
    let seen := [moment.scene, edited.scene, first.scene, (Moment.fresh importTree).scene]
    let loaded : LoadedModule :=
      { contents := "q.t \x7b\x7d\n", loader := .style, watchFiles := [⟨"a.scss"⟩, ⟨"b.scss"⟩] }
    Run project seen .scanned moment ∧ Phase.scanned ≠ .edited ∧ StampsTellContents seen ∧
      project.Asks scopedStyleId ⟨"a.scss"⟩ (.stylesheet (some "t".toList)) ∧
      moment.Answers project scopedStyleId (some loaded) ∧
      (Moment.fresh moment.files).Answers project scopedStyleId (some loaded) := by
  intro project first edited moment seen loaded
  have himported : importTree.isFile ⟨"b.scss"⟩ = true := by decide +kernel
  have hfirst : Run project [first.scene, (Moment.fresh importTree).scene] .opened first :=
    .step (.start importTree) (.load fun hphase => (nomatch hphase))
  have hedited : Run project [edited.scene, first.scene, (Moment.fresh importTree).scene] .edited
      edited := .step hfirst (.edit himported)
  have run : Run project seen .scanned moment :=
    .step hedited (.buildStart (Session.answers_buildStart_iff.mpr ⟨_, rfl⟩))
  have unchanged : Phase.scanned ≠ .edited := fun hphase => (nomatch hphase)
  have htell : StampsTellContents seen := stampsTellContents_of_entries (by decide +kernel)
  have hasks : project.Asks scopedStyleId ⟨"a.scss"⟩ (.stylesheet (some "t".toList)) :=
    ⟨⟨⟨"a.scss"⟩, some (.stylesheet (some "t".toList) none)⟩, by rfl, by rfl, by decide +kernel⟩
  have hanswer : moment.Answers project scopedStyleId (some loaded) := by decide +kernel
  exact ⟨run, unchanged, htell, hasks, hanswer,
    (answers_stylesheet_iff_fresh run unchanged htell hasks (some loaded)).mp hanswer⟩

/-! ## Inline resources -/

/-- What a grounded session answers for an inline resource is what the files specify. -/
theorem Moment.Grounded.isResource_of_answers
    (hreports : project.toolchain.pipeline.preprocessor.ReportsReads)
    (h : moment.Grounded project seen phase) (htell : StampsTellContents seen)
    (unchanged : phase ≠ .edited) {request : Request} (hasks : project.Asks id path request)
    (hinline : request.isInline = true) {loaded : Option LoadedModule}
    (hanswer : moment.Answers project id loaded) :
    project.IsResource moment.files path request loaded := by
  unfold Moment.Answers at hanswer
  rw [Session.load_of_asks hasks] at hanswer
  exact ((Session.triple_serve_resource hreports (h.follows htell) h.templates hasks hinline).weaken
    (fun _ _ hafter => hafter.1) fun _ hfailed => hfailed).of_answers (h.stands unchanged) hanswer

/-- Once the template is kept, whatever the files specify for an inline resource is answered. -/
theorem Moment.Grounded.answers_resource_iff
    (hreports : project.toolchain.pipeline.preprocessor.ReportsReads)
    (h : moment.Grounded project seen phase) (htell : StampsTellContents seen)
    (unchanged : phase ≠ .edited) {request : Request} (hasks : project.Asks id path request)
    (hinline : request.isInline = true)
    (hkept : (moment.session.templates.get? path.text).isSome = true)
    {loaded : Option LoadedModule} :
    moment.Answers project id loaded ↔ project.IsResource moment.files path request loaded := by
  unfold Moment.Answers
  rw [Session.load_of_asks hasks]
  refine ((Session.triple_serve_resource hreports (h.follows htell) h.templates hasks
      hinline).weaken (fun _ _ hafter => hafter.1)
    fun _ hfailed => hfailed.2 hkept).answers_iff ?_ ?_ (h.stands unchanged)
  · exact fun _ hnone => hnone
  · exact fun _ _ hloaded hloaded' => hloaded.unique hloaded'

/-- A template that can be compiled is kept after it was loaded. -/
theorem Moment.Grounded.kept_after_load (h : moment.Grounded project seen phase)
    (htell : StampsTellContents seen) (unchanged : phase ≠ .edited)
    (hasks : project.Asks id path .template)
    (hcompiles : ∃ compiled, project.compileIn moment.scene path = .ok compiled) :
    ((moment.next project (.load id)).session.templates.get? path.text).isSome = true := by
  obtain ⟨compiled, hcompiled⟩ := hcompiles
  obtain ⟨origin, hseen, horigin⟩ := Scene.exists_origin (h.follows htell).mem h.templates path
  have hkeeps : Session.Triple
      (Session.Stands · moment.scene moment.session.templates moment.session.stylesheets)
      (Session.load project moment.files id)
      (fun _ session => (session.templates.get? path.text).isSome = true)
      (fun session => (session.templates.get? path.text).isSome = true) := by
    rw [Session.load_of_asks hasks]
    apply Session.Triple.map
    refine (Session.triple_loadTemplate (h.follows htell) h.templates hseen horigin).weaken ?_ ?_
    · intro loaded session hafter
      obtain ⟨-, entry, -, templates, hstands', -, hentry⟩ := hafter
      rw [hstands'.templates, hentry]
      rfl
    · intro session hfailed
      obtain ⟨compiled', hcompiled', -⟩ :=
        Project.exists_compileIn_of_files hcompiled origin.helpers
      exact absurd ⟨compiled', hcompiled', rfl⟩ (hfailed.2 compiled'.loaded)
  exact hkeeps.after_of (h.stands unchanged)

/-- A session that keeps a template answers for its inline resources what a new session answers that
first loads the template. -/
theorem answers_resource_iff_fresh {settings : Settings}
    (run : Run (.standard settings) seen phase moment) (unchanged : phase ≠ .edited)
    (htell : StampsTellContents seen) {request : Request}
    (hasks : (Project.standard settings).Asks id path request) (hinline : request.isInline = true)
    (hkept : (moment.session.templates.get? path.text).isSome = true)
    (loaded : Option LoadedModule) :
    moment.Answers (.standard settings) id loaded ↔
      ((Moment.fresh moment.files).next (.standard settings) (.load path.text)).Answers
        (.standard settings) id loaded := by
  have hreports := Project.reportsReads_standard settings
  have hopened : Phase.opened ≠ .edited := fun hphase => (nomatch hphase)
  have htemplate := hasks.template hinline
  have hfresh := Moment.Grounded.fresh (.standard settings) moment.files
  have htellFresh := stampsTellContents_fresh moment.files
  have hloaded := hfresh.load hreports htellFresh hopened path.text
  have htellLoaded : StampsTellContents
      [((Moment.fresh moment.files).next (.standard settings) (.load path.text)).scene,
        (Moment.fresh moment.files).scene] := htellFresh.cons_same List.mem_cons_self rfl
  rw [(run.grounded hreports htell).answers_resource_iff hreports htell unchanged hasks hinline
    hkept]
  constructor
  · intro hresource
    have hcompiles : ∃ compiled, (Project.standard settings).compileIn
        (Moment.fresh moment.files).scene path = .ok compiled := hresource.exists_compileIn
    have hkeptLoaded := hfresh.kept_after_load htellFresh hopened htemplate hcompiles
    exact (hloaded.answers_resource_iff hreports htellLoaded hopened hasks hinline
      hkeptLoaded).mpr hresource
  · exact hloaded.isResource_of_answers hreports htellLoaded hopened hasks hinline

/-- The id of the inline stylesheet of `c.html`. -/
def inlineStyleId : Text := "c.html?type=componentStylesheet&scope=s&i=0"

/-- The template was kept with its inline stylesheet, and what that imports has changed between the
passes. -/
theorem answers_inline_of_changed_import :
    let project := Project.standard plainSettings
    let first := (Moment.fresh importTree).next project (.load "c.html")
    let second := first.next project (.load inlineStyleId)
    let edited := second.next project (.edit (.write ⟨"b.scss"⟩ (Text.utf8 "q \x7b\x7d") 5))
    let moment := edited.next project .buildStart
    let seen := [moment.scene, edited.scene, second.scene, first.scene,
      (Moment.fresh importTree).scene]
    let loaded : LoadedModule :=
      { contents := "q.s \x7b\x7d\n", loader := .style, watchFiles := [⟨"b.scss"⟩, ⟨"c.html"⟩] }
    Run project seen .scanned moment ∧ Phase.scanned ≠ .edited ∧ StampsTellContents seen ∧
      project.Asks inlineStyleId ⟨"c.html"⟩ (.inlineStyle (some "s".toList) (some 0)) ∧
      (moment.session.templates.get? "c.html".toList).isSome = true ∧
      moment.Answers project inlineStyleId (some loaded) ∧
      ((Moment.fresh moment.files).next project (.load "c.html")).Answers project inlineStyleId
        (some loaded) := by
  intro project first second edited moment seen loaded
  have hopened : Phase.opened ≠ .edited := fun hphase => (nomatch hphase)
  have himported : importTree.isFile ⟨"b.scss"⟩ = true := by decide +kernel
  have hfirst : Run project [first.scene, (Moment.fresh importTree).scene] .opened first :=
    .step (.start importTree) (.load hopened)
  have hsecond : Run project [second.scene, first.scene, (Moment.fresh importTree).scene] .opened
      second := .step hfirst (.load hopened)
  have hedited : Run project
      [edited.scene, second.scene, first.scene, (Moment.fresh importTree).scene] .edited edited :=
    .step hsecond (.edit himported)
  have run : Run project seen .scanned moment :=
    .step hedited (.buildStart (Session.answers_buildStart_iff.mpr ⟨_, rfl⟩))
  have unchanged : Phase.scanned ≠ .edited := fun hphase => (nomatch hphase)
  have htell : StampsTellContents seen := stampsTellContents_of_entries (by decide +kernel)
  have hasks : project.Asks inlineStyleId ⟨"c.html"⟩
      (.inlineStyle (some "s".toList) (some 0)) :=
    ⟨⟨⟨"c.html"⟩, some (.stylesheet (some "s".toList) (some 0))⟩, by rfl, by rfl,
      by decide +kernel⟩
  have hkept : (moment.session.templates.get? "c.html".toList).isSome = true := by decide +kernel
  have hanswer : moment.Answers project inlineStyleId (some loaded) := by decide +kernel
  exact ⟨run, unchanged, htell, hasks, hkept, hanswer,
    (answers_resource_iff_fresh run unchanged htell hasks rfl hkept (some loaded)).mp hanswer⟩

end

end ComponentLoader
