import ComponentLoader.Proofs.Session.Stylesheet
set_option autoImplicit false

/-!
# Loading templates (SPEC §4.5)

A template is compiled from its text and from the helper index of the pass, but its entry is checked
against its own identity only.  So the module that is answered is the one that the present text has
with the index of the scene in which it was compiled, its `Origin`.  All that depends on the text
alone, the resources above all, is as in the present scene.
-/

namespace ComponentLoader

/-! ## Compiled templates -/

/-- What the template at a path is compiled to in a scene. -/
def Project.compileIn (project : Project) (scene : Scene) (path : FilePath) :
    Except TemplateError CompiledTemplate :=
  compile project.toolchain.parser project.settings scene.helpers scene.files path

/-- The template at a path cannot be compiled, with any helpers. -/
def Project.Refuses (project : Project) (files : FileTree) (path : FilePath) : Prop :=
  ∀ helpers compiled, project.compileIn ⟨files, helpers⟩ path ≠ .ok compiled

/-- The module of a compiled template. -/
def CompiledTemplate.loaded (compiled : CompiledTemplate) : LoadedModule where
  contents := compiled.code
  loader := .script
  diagnostics := compiled.diagnostics

/-- The module that a template has in a scene. -/
def Project.IsTemplate (project : Project) (scene : Scene) (path : FilePath)
    (loaded : LoadedModule) : Prop :=
  ∃ compiled, project.compileIn scene path = .ok compiled ∧ loaded = compiled.loaded

section

variable {project : Project} {scene : Scene} {path : FilePath}

theorem Project.IsTemplate.unique {loaded loaded' : LoadedModule}
    (h : project.IsTemplate scene path loaded) (h' : project.IsTemplate scene path loaded') :
    loaded = loaded' := by
  obtain ⟨compiled, hcompiled, rfl⟩ := h
  obtain ⟨compiled', hcompiled', rfl⟩ := h'
  obtain rfl : compiled = compiled' := Except.ok.inj (hcompiled.symm.trans hcompiled')
  rfl

theorem Project.compileIn_eq_ok_iff {compiled : CompiledTemplate} :
    project.compileIn scene path = .ok compiled ↔
      ∃ source parsed, scene.files.readText path = .ok source ∧
        (project.toolchain.parser source).result = .ok parsed ∧
        compiled = Compile.ofParsed project.settings scene.helpers path source
          (project.toolchain.parser source).warnings parsed := by
  unfold compileIn compile
  cases scene.files.readText path with
  | error fault => simp
  | ok source =>
      unfold Compile.ofSource
      cases hresult : (project.toolchain.parser source).result with
      | error fault => simp [hresult]
      | ok parsed => simp [hresult, eq_comm]

/-- Whether a template can be compiled, and its resources, do not depend on the helpers. -/
theorem Project.exists_compileIn_of_files {compiled : CompiledTemplate}
    (h : project.compileIn scene path = .ok compiled) (helpers : HelperIndex) :
    ∃ compiled', project.compileIn ⟨scene.files, helpers⟩ path = .ok compiled' ∧
      compiled'.scripts = compiled.scripts ∧ compiled'.styles = compiled.styles := by
  obtain ⟨source, parsed, hsource, hparsed, rfl⟩ := compileIn_eq_ok_iff.mp h
  exact ⟨_, compileIn_eq_ok_iff.mpr ⟨source, parsed, hsource, hparsed, rfl⟩, rfl, rfl⟩

theorem Project.refuses_of_compileIn {e : TemplateError}
    (h : project.compileIn scene path = .error e) : project.Refuses scene.files path := by
  intro helpers compiled hcompiled
  obtain ⟨compiled', hcompiled', -⟩ := exists_compileIn_of_files hcompiled scene.helpers
  have herror : project.compileIn scene path = .ok compiled' := hcompiled'
  rw [h] at herror
  cases herror

theorem Project.refuses_of_readText {files : FileTree}
    (h : ∀ source, files.readText path ≠ .ok source) : project.Refuses files path := by
  intro helpers compiled hcompiled
  obtain ⟨source, -, hsource, -⟩ := compileIn_eq_ok_iff.mp hcompiled
  exact h source hsource

end

/-! ## Entries of templates -/

/-- The inline stylesheet of a compiled template with a number, if there is one and it is not
empty. -/
def CompiledTemplate.inlineStyle? (compiled : CompiledTemplate) (index : Option UInt64) :
    Option (Text × Text) := do
  let style ← compiled.styles[(← index).toNat]?
  return (← style.text?, style.lang)

/-- What is asked of the pipeline for an inline stylesheet of a template. -/
def Project.inlineRequest (project : Project) (path : FilePath) (scope : Option Text)
    (lang : Text) :
    StyleRequest :=
  Session.styleRequest project.settings path
    (some (scope.getD (Compile.scopeToken project.settings path)))
    ((StyleKind.ofLang? project.settings.style.preprocess lang).getD .css)

/-- The entry holds what a template was compiled to in a scene. -/
structure TemplateEntry.OfTemplate (entry : TemplateEntry) (project : Project) (scene : Scene)
    (path : FilePath) (compiled : CompiledTemplate) : Prop where
  key : scene.files.Shows path entry.base.key
  compile : project.compileIn scene path = .ok compiled
  base : entry.base = (TemplateEntry.ofCompiled entry.base.key compiled).base
  scripts : entry.scripts = compiled.scripts
  styles : entry.styles = compiled.styles

/-- The stylesheet that is kept with a template under an id was made, in one of some scenes, of the
inline stylesheet of the template that the id asks for. -/
def TemplateEntry.StylesFrom (entry : TemplateEntry) (project : Project) (seen : List Scene)
    (path : FilePath) : Prop :=
  ∀ id style, entry.styleCache.get? id = some style →
    ∃ scope index lang, project.Asks id path (.inlineStyle scope index) ∧
      Session.inlineStyle? entry index = some (style.source, lang) ∧
      ∃ scene ∈ seen, ∃ processed,
        style.MadeIn project.toolchain.pipeline scene.files (project.inlineRequest path scope lang)
          [path] processed

/-- Every entry was compiled in one of some scenes, and so were the stylesheets that are kept with
it. -/
def Project.TemplatesFrom (project : Project) (seen : List Scene)
    (templates : OrderedMap Text TemplateEntry) : Prop :=
  ∀ text entry, templates.get? text = some entry →
    (∃ scene ∈ seen, ∃ compiled, entry.OfTemplate project scene ⟨text⟩ compiled) ∧
      entry.StylesFrom project seen ⟨text⟩

section

variable {project : Project} {seen : List Scene} {templates : OrderedMap Text TemplateEntry}
  {entry : TemplateEntry} {path : FilePath}

theorem TemplateEntry.StylesFrom.mono (h : entry.StylesFrom project seen path) {seen' : List Scene}
    (hseen : ∀ scene ∈ seen, scene ∈ seen') : entry.StylesFrom project seen' path := by
  intro id style hstyle
  obtain ⟨scope, index, lang, hasks, hinline, scene, hmem, hmade⟩ := h id style hstyle
  exact ⟨scope, index, lang, hasks, hinline, scene, hseen scene hmem, hmade⟩

theorem Project.templatesFrom_empty : project.TemplatesFrom seen .empty := by
  intro text entry h
  cases h

theorem Project.TemplatesFrom.mono (h : project.TemplatesFrom seen templates) {seen' : List Scene}
    (hseen : ∀ scene ∈ seen, scene ∈ seen') : project.TemplatesFrom seen' templates := by
  intro text entry hentry
  obtain ⟨⟨scene, hmem, hcompiled⟩, hstyles⟩ := h text entry hentry
  exact ⟨⟨scene, hseen scene hmem, hcompiled⟩, hstyles.mono hseen⟩

theorem Project.TemplatesFrom.insert (h : project.TemplatesFrom seen templates) {scene : Scene}
    (hscene : scene ∈ seen) {compiled : CompiledTemplate}
    (hentry : entry.OfTemplate project scene path compiled)
    (hstyles : entry.StylesFrom project seen path) :
    project.TemplatesFrom seen (templates.insert path.text entry) := by
  intro asked found hfound
  rcases OrderedMap.get?_insert_eq_some hfound with ⟨rfl, rfl⟩ | hkept
  · exact ⟨⟨scene, hscene, compiled, hentry⟩, hstyles⟩
  · exact h asked found hkept

/-- The entry that was kept for a template whose file has not changed since. -/
def TemplateEntry.Current (entry : TemplateEntry) (now : Scene)
    (templates : OrderedMap Text TemplateEntry) (path : FilePath) : Prop :=
  templates.get? path.text = some entry ∧ now.files.Shows path entry.base.key

/-- The entry of a template records no dependencies. -/
theorem TemplateEntry.OfTemplate.dependencies {scene : Scene} {compiled : CompiledTemplate}
    (h : entry.OfTemplate project scene path compiled) : entry.base.dependencies = .empty := by
  rw [h.base]
  rfl

/-- With the helpers of the scene in which it was compiled, the present text of a template whose
file has not changed compiles to the same. -/
theorem TemplateEntry.OfTemplate.now {scene now : Scene} {compiled : CompiledTemplate}
    (h : entry.OfTemplate project scene path compiled) (htell : now.files.StampsTell scene.files)
    (hkey : now.files.Shows path entry.base.key) :
    entry.OfTemplate project ⟨now.files, scene.helpers⟩ path compiled := by
  obtain ⟨source, parsed, hsource, hparsed, hcompiled⟩ :=
    Project.compileIn_eq_ok_iff.mp h.compile
  have hnow : now.files.readText path = .ok source :=
    FileTree.readText_eq_of_shows htell hkey h.key hsource
  have hcompile : project.compileIn ⟨now.files, scene.helpers⟩ path = .ok compiled :=
    Project.compileIn_eq_ok_iff.mpr ⟨source, parsed, hnow, hparsed, hcompiled⟩
  exact ⟨hkey, hcompile, h.base, h.scripts, h.styles⟩

end

/-! ## Origins -/

/-- The scene in which the template that is in use was compiled: for a current entry one in which it
was, and without one the present scene. -/
structure Scene.Origin (origin : Scene) (project : Project) (now : Scene)
    (templates : OrderedMap Text TemplateEntry) (path : FilePath) : Prop where
  kept : ∀ entry : TemplateEntry, entry.Current now templates path →
    ∃ compiled, entry.OfTemplate project origin path compiled
  new : (∀ entry : TemplateEntry, ¬ entry.Current now templates path) → origin = now

theorem Scene.exists_origin {project : Project} {seen : List Scene} {now : Scene}
    {templates : OrderedMap Text TemplateEntry} (hmem : now ∈ seen)
    (hfrom : project.TemplatesFrom seen templates) (path : FilePath) :
    ∃ origin ∈ seen, origin.Origin project now templates path := by
  rcases Classical.em (∃ entry : TemplateEntry, entry.Current now templates path) with
    ⟨entry, hcurrent⟩ | hnone
  · obtain ⟨⟨origin, horigin, compiled, hof⟩, -⟩ := hfrom path.text entry hcurrent.1
    refine ⟨origin, horigin, ?_, fun hnone => absurd hcurrent (hnone entry)⟩
    intro entry' hcurrent'
    obtain rfl : entry = entry' := Option.some.inj (hcurrent.1.symm.trans hcurrent'.1)
    exact ⟨compiled, hof⟩
  · refine ⟨now, hmem, ?_, fun _ => rfl⟩
    intro entry hcurrent
    exact absurd ⟨entry, hcurrent⟩ hnone

namespace Session

section

variable {project : Project} {now : Scene} {templates : OrderedMap Text TemplateEntry}
  {stylesheets : OrderedMap Text CacheEntry} {path : FilePath}

/-! ## Compiling -/

theorem triple_compileTemplate {key : CacheKey} (hkey : now.files.Shows path key) :
    Triple (Stands · now templates stylesheets) (compileTemplate project now.files path key)
      (fun entry session =>
        session.Stands now (templates.insert path.text entry) stylesheets ∧
          ∃ compiled, entry = .ofCompiled key compiled ∧
            entry.OfTemplate project now path compiled)
      (fun session => session.Stands now templates stylesheets ∧
        project.Refuses now.files path) := by
  unfold compileTemplate
  cases htext : now.files.readText path with
  | error fault =>
      apply Triple.throw
      intro session hstands
      refine ⟨hstands, Project.refuses_of_readText ?_⟩
      intro source hsource
      rw [htext] at hsource
      cases hsource
  | ok source =>
      apply Triple.bind triple_countParse
      intro _
      apply Triple.get_bind
      intro session hstands
      simp only [hstands.helpers]
      have hcompile : project.compileIn now path = Compile.ofSource project.toolchain.parser
          project.settings now.helpers path source := by
        unfold Project.compileIn compile
        rw [htext]
      rw [← hcompile]
      cases hresult : project.compileIn now path with
      | error e =>
          exact Triple.throw fun session hstands =>
            ⟨hstands, Project.refuses_of_compileIn hresult⟩
      | ok compiled =>
          have hof : (TemplateEntry.ofCompiled key compiled).OfTemplate project now path compiled :=
            { key := hkey, compile := hresult, base := rfl, scripts := rfl, styles := rfl }
          apply Triple.bind (triple_putTemplate path.text (.ofCompiled key compiled))
          intro _
          exact Triple.pure fun session hstands => ⟨hstands, compiled, rfl, hof⟩

/-- The session keeps an entry that holds what a template is compiled to with the helpers of some
scene. -/
def HasTemplate (session : Session) (project : Project) (seen : List Scene) (now origin : Scene)
    (stylesheets : OrderedMap Text CacheEntry) (path : FilePath) (entry : TemplateEntry) : Prop :=
  (∃ compiled, entry.OfTemplate project ⟨now.files, origin.helpers⟩ path compiled) ∧
    ∃ templates, session.Stands now templates stylesheets ∧
      project.TemplatesFrom seen templates ∧ templates.get? path.text = some entry

variable {seen : List Scene} {origin : Scene}

theorem triple_of_hasTemplate {α : Type} {entry : TemplateEntry} {step : SessionM α}
    {after : α → Session → Prop} {failed : Session → Prop}
    (h : ∀ compiled templates,
      entry.OfTemplate project ⟨now.files, origin.helpers⟩ path compiled →
      project.TemplatesFrom seen templates → templates.get? path.text = some entry →
      Triple (Stands · now templates stylesheets) step after failed) :
    Triple (HasTemplate · project seen now origin stylesheets path entry) step after failed := by
  rintro session ⟨⟨compiled, hof⟩, templates, hstands, hfrom, hkept⟩
  exact h compiled templates hof hfrom hkept session hstands

/-- Where no current entry is kept, the template is compiled. -/
theorem triple_compileTemplate_new (hmem : now ∈ seen)
    (hfrom : project.TemplatesFrom seen templates)
    (horigin : origin.Origin project now templates path)
    (hnone : ∀ entry : TemplateEntry, ¬ entry.Current now templates path) {key : CacheKey}
    (hkey : now.files.Shows path key) :
    Triple (Stands · now templates stylesheets) (compileTemplate project now.files path key)
      (fun entry session => session.HasTemplate project seen now origin stylesheets path entry)
      (fun session => session.Stands now templates stylesheets ∧
        project.Refuses now.files path) := by
  refine (triple_compileTemplate hkey).weaken ?_ fun _ h => h
  rintro entry session ⟨hstands, compiled, hentry, hof⟩
  obtain rfl : origin = now := horigin.new hnone
  refine ⟨⟨compiled, hof⟩, _, hstands, ?_, OrderedMap.get?_insert_self templates path.text entry⟩
  apply hfrom.insert hmem hof
  intro id style hstyle
  rw [hentry] at hstyle
  cases hstyle

/-- A current entry is kept, and any other one gives way to what is compiled. -/
theorem triple_templateEntry (hnow : now.Follows seen)
    (hfrom : project.TemplatesFrom seen templates) (hseen : origin ∈ seen)
    (horigin : origin.Origin project now templates path) :
    Triple (Stands · now templates stylesheets) (templateEntry project now.files path)
      (fun found session =>
        session.HasTemplate project seen now origin stylesheets path found.1)
      (fun session => session.Stands now templates stylesheets ∧
        project.Refuses now.files path) := by
  unfold templateEntry
  apply Triple.bind
  · apply (triple_identity path).weaken_failed
    rintro session ⟨hstands, hnone⟩
    refine ⟨hstands, Project.refuses_of_readText ?_⟩
    intro source hsource
    obtain ⟨key, hkey⟩ := FileTree.exists_observe_of_readText hsource
    exact hnone key hkey
  · intro key
    apply Triple.assuming
    intro hkey
    apply Triple.get_bind
    intro session hstands
    rw [hstands.templates]
    cases hentry : templates.get? path.text with
    | none =>
        have hnone : ∀ entry : TemplateEntry, ¬ entry.Current now templates path := by
          rintro entry ⟨hkept, -⟩
          rw [hentry] at hkept
          cases hkept
        apply Triple.bind (triple_compileTemplate_new hnow.mem hfrom horigin hnone hkey)
        exact fun entry => Triple.pure fun _ h => h
    | some entry =>
        apply Triple.bind (triple_isValid key entry.base)
        intro valid
        apply Triple.assuming
        rintro ⟨hvalid, hunrecorded⟩
        cases valid with
        | true =>
            obtain ⟨rfl, -⟩ := hvalid rfl
            obtain ⟨compiled, hof⟩ := horigin.kept entry ⟨hentry, hkey⟩
            have hofNow := hof.now (hnow.stampsTell origin hseen) hkey
            apply Triple.pure
            intro session hstands
            exact ⟨⟨compiled, hofNow⟩, templates, hstands, hfrom, hentry⟩
        | false =>
            have hnone : ∀ entry : TemplateEntry, ¬ entry.Current now templates path := by
              rintro old ⟨hold, hshows⟩
              obtain rfl : entry = old := Option.some.inj (hentry.symm.trans hold)
              obtain ⟨⟨scene, -, compiled, hof⟩, -⟩ := hfrom path.text entry hentry
              have htrue := hunrecorded (hshows.key_eq hkey) hof.dependencies
              cases htrue
            apply Triple.bind (triple_compileTemplate_new hnow.mem hfrom horigin hnone hkey)
            exact fun entry => Triple.pure fun _ h => h

/-! ## Loading -/

/-- A template is answered as it is with the helpers of its origin, and is kept then. -/
theorem triple_loadTemplate (hnow : now.Follows seen) (hfrom : project.TemplatesFrom seen templates)
    (hseen : origin ∈ seen) (horigin : origin.Origin project now templates path) :
    Triple (Stands · now templates stylesheets) (loadTemplate project now.files path)
      (fun loaded session => project.IsTemplate ⟨now.files, origin.helpers⟩ path loaded ∧
        ∃ entry, session.HasTemplate project seen now origin stylesheets path entry)
      (fun session => session.Stands now templates stylesheets ∧
        ∀ loaded, ¬ project.IsTemplate ⟨now.files, origin.helpers⟩ path loaded) := by
  unfold loadTemplate
  apply Triple.bind
  · apply (triple_templateEntry hnow hfrom hseen horigin).weaken_failed
    rintro session ⟨hstands, hrefuses⟩
    refine ⟨hstands, ?_⟩
    rintro loaded ⟨compiled, hcompiled, -⟩
    exact hrefuses origin.helpers compiled hcompiled
  · rintro ⟨entry, kept⟩
    apply triple_of_hasTemplate
    intro compiled templates' hof hfrom' hkept
    have hanswer : ∀ session : Session, session.Stands now templates' stylesheets →
        project.IsTemplate ⟨now.files, origin.helpers⟩ path
            { contents := entry.base.code
              loader := .script
              diagnostics := entry.base.diagnostics } ∧
          ∃ entry, session.HasTemplate project seen now origin stylesheets path entry := by
      intro session hstands
      refine ⟨⟨compiled, hof.compile, ?_⟩, entry, ⟨compiled, hof⟩, templates', hstands, hfrom',
        hkept⟩
      rw [hof.base]
      rfl
    cases kept with
    | true => exact Triple.bind triple_countHit fun _ => Triple.pure hanswer
    | false => exact Triple.bind triple_countMiss fun _ => Triple.pure hanswer

end

end Session

end ComponentLoader
