import ComponentLoader.Proofs.Session.Template
set_option autoImplicit false

/-!
# Loading inline resources (SPEC §4.5, §8)

The scripts and stylesheets inside a template are specified by the files alone too: neither depends
on the helpers.  A session answers them as specified once the template itself is kept, and never
otherwise.  An inline stylesheet is kept with its template, so it goes when the template is compiled
anew; while the template stays, the records of the stylesheet are checked by themselves.
-/

namespace ComponentLoader

/-! ## Inline resources -/

/-- The module of the inline script with a number, if there is one and it is not empty. -/
def CompiledTemplate.inlineScript? (compiled : CompiledTemplate) (index : UInt64) :
    Option LoadedModule := do
  let script ← compiled.scripts[index.toNat]?
  return { contents := ← script.text?, loader := .ofScriptLang script.lang }

/-- The module, if any, that an inline script of a template has in a file tree. -/
def Project.IsInlineScript (project : Project) (files : FileTree) (path : FilePath) (index : UInt64)
    (loaded : Option LoadedModule) : Prop :=
  ∃ compiled, project.compileIn ⟨files, .empty⟩ path = .ok compiled ∧
    loaded = compiled.inlineScript? index

/-- The module, if any, that an inline stylesheet of a template has in a file tree. -/
def Project.IsInlineStyle (project : Project) (files : FileTree) (path : FilePath)
    (scope : Option Text) (index : Option UInt64) (loaded : Option LoadedModule) : Prop :=
  ∃ compiled, project.compileIn ⟨files, .empty⟩ path = .ok compiled ∧
    match compiled.inlineStyle? index with
    | none => loaded = none
    | some (content, lang) =>
      ∃ processed,
        project.toolchain.pipeline.process files content (project.inlineRequest path scope lang) =
          .ok processed ∧
        loaded = some (processed.loaded [path])

/-- The module, if any, that an inline resource has in a file tree. -/
def Project.IsResource (project : Project) (files : FileTree) (path : FilePath) :
    Request → Option LoadedModule → Prop
  | .inlineScript index => project.IsInlineScript files path index
  | .inlineStyle scope index => project.IsInlineStyle files path scope index
  | .template | .stylesheet _ => fun _ => False

section

variable {project : Project} {files : FileTree} {path : FilePath}

theorem Project.IsInlineScript.unique {index : UInt64} {loaded loaded' : Option LoadedModule}
    (h : project.IsInlineScript files path index loaded)
    (h' : project.IsInlineScript files path index loaded') : loaded = loaded' := by
  obtain ⟨compiled, hcompiled, rfl⟩ := h
  obtain ⟨compiled', hcompiled', rfl⟩ := h'
  obtain rfl : compiled = compiled' := Except.ok.inj (hcompiled.symm.trans hcompiled')
  rfl

theorem Project.IsInlineStyle.unique {scope : Option Text} {index : Option UInt64}
    {loaded loaded' : Option LoadedModule} (h : project.IsInlineStyle files path scope index loaded)
    (h' : project.IsInlineStyle files path scope index loaded') : loaded = loaded' := by
  obtain ⟨compiled, hcompiled, hloaded⟩ := h
  obtain ⟨compiled', hcompiled', hloaded'⟩ := h'
  obtain rfl : compiled = compiled' := Except.ok.inj (hcompiled.symm.trans hcompiled')
  cases hinline : compiled.inlineStyle? index with
  | none =>
      simp only [hinline] at hloaded hloaded'
      rw [hloaded, hloaded']
  | some found =>
      simp only [hinline] at hloaded hloaded'
      obtain ⟨processed, hprocess, rfl⟩ := hloaded
      obtain ⟨processed', hprocess', rfl⟩ := hloaded'
      obtain rfl : processed = processed' := Except.ok.inj (hprocess.symm.trans hprocess')
      rfl

theorem Project.IsResource.unique {request : Request} {loaded loaded' : Option LoadedModule}
    (h : project.IsResource files path request loaded)
    (h' : project.IsResource files path request loaded') : loaded = loaded' := by
  cases request with
  | template => exact h.elim
  | inlineScript index => exact IsInlineScript.unique h h'
  | inlineStyle scope index => exact IsInlineStyle.unique h h'
  | stylesheet scope => exact h.elim

/-- A resource is specified only where its template can be compiled. -/
theorem Project.IsResource.exists_compileIn {request : Request} {loaded : Option LoadedModule}
    (h : project.IsResource files path request loaded) :
    ∃ compiled, project.compileIn ⟨files, .empty⟩ path = .ok compiled := by
  cases request with
  | template => exact h.elim
  | inlineScript index => exact h.imp fun _ h => h.1
  | inlineStyle scope index => exact h.imp fun _ h => h.1
  | stylesheet scope => exact h.elim

/-! ## Resources of entries -/

variable {entry : TemplateEntry} {helpers : HelperIndex} {compiled : CompiledTemplate}

theorem TemplateEntry.OfTemplate.inlineStyle?_eq {scene : Scene}
    (h : entry.OfTemplate project scene path compiled) (index : Option UInt64) :
    Session.inlineStyle? entry index = compiled.inlineStyle? index := by
  unfold Session.inlineStyle? CompiledTemplate.inlineStyle?
  rw [h.styles]

/-- An entry keeps what it holds of the template when another stylesheet is put into it. -/
theorem TemplateEntry.OfTemplate.withStyles {scene : Scene}
    (h : entry.OfTemplate project scene path compiled) (styles : OrderedMap Text CacheEntry) :
    TemplateEntry.OfTemplate { entry with styleCache := styles } project scene path compiled :=
  ⟨h.key, h.compile, h.base, h.scripts, h.styles⟩

/-- The inline stylesheet of a compiled entry is the one of the files, whatever the helpers are. -/
theorem TemplateEntry.OfTemplate.exists_compileIn_empty
    (h : entry.OfTemplate project ⟨files, helpers⟩ path compiled) :
    ∃ plain, project.compileIn ⟨files, .empty⟩ path = .ok plain ∧
      (∀ index, plain.inlineScript? index = compiled.inlineScript? index) ∧
      ∀ index, plain.inlineStyle? index = compiled.inlineStyle? index := by
  obtain ⟨plain, hplain, hscripts, hstyles⟩ :=
    Project.exists_compileIn_of_files h.compile .empty
  refine ⟨plain, hplain, ?_, ?_⟩
  · intro index
    unfold CompiledTemplate.inlineScript?
    rw [hscripts]
  · intro index
    unfold CompiledTemplate.inlineStyle?
    rw [hstyles]

/-- Where an entry has no such inline stylesheet, there is no module. -/
theorem TemplateEntry.OfTemplate.isInlineStyle_none
    (h : entry.OfTemplate project ⟨files, helpers⟩ path compiled) {index : Option UInt64}
    (hinline : Session.inlineStyle? entry index = none) (scope : Option Text) :
    project.IsInlineStyle files path scope index none := by
  obtain ⟨plain, hplain, -, hstyles⟩ := h.exists_compileIn_empty
  have hnone : plain.inlineStyle? index = none := by
    rw [hstyles, ← h.inlineStyle?_eq, hinline]
  refine ⟨plain, hplain, ?_⟩
  rw [hnone]

/-- Where an entry has an inline stylesheet, its module is what the pipeline makes of it. -/
theorem TemplateEntry.OfTemplate.isInlineStyle_iff
    (h : entry.OfTemplate project ⟨files, helpers⟩ path compiled) {index : Option UInt64}
    {content lang : Text} (hinline : Session.inlineStyle? entry index = some (content, lang))
    {scope : Option Text} {loaded : Option LoadedModule} :
    project.IsInlineStyle files path scope index loaded ↔
      ∃ processed,
        project.toolchain.pipeline.process files content (project.inlineRequest path scope lang) =
          .ok processed ∧
        loaded = some (processed.loaded [path]) := by
  obtain ⟨plain, hplain, -, hstyles⟩ := h.exists_compileIn_empty
  have hsome : plain.inlineStyle? index = some (content, lang) := by
    rw [hstyles, ← h.inlineStyle?_eq, hinline]
  constructor
  · rintro ⟨plain', hplain', hloaded⟩
    obtain rfl : plain = plain' := Except.ok.inj (hplain.symm.trans hplain')
    rw [hsome] at hloaded
    exact hloaded
  · intro hloaded
    refine ⟨plain, hplain, ?_⟩
    rw [hsome]
    exact hloaded

theorem TemplateEntry.StylesFrom.insert {seen : List Scene}
    (h : entry.StylesFrom project seen path) {id : Text} {scope : Option Text}
    {index : Option UInt64} (hasks : project.Asks id path (.inlineStyle scope index))
    {scene : Scene} (hscene : scene ∈ seen) {style : CacheEntry} {lang : Text}
    {processed : ProcessedStyle}
    (hstyle : style.MadeIn project.toolchain.pipeline scene.files
      (project.inlineRequest path scope lang) [path] processed)
    (hinline : Session.inlineStyle? entry index = some (style.source, lang)) :
    TemplateEntry.StylesFrom { entry with styleCache := entry.styleCache.insert id style }
      project seen path := by
  intro asked found hfound
  rcases OrderedMap.get?_insert_eq_some hfound with ⟨rfl, rfl⟩ | hkept
  · exact ⟨scope, index, lang, hasks, hinline, scene, hscene, processed, hstyle⟩
  · exact h asked found hkept

/-- A stylesheet that is kept with a template, and whose records the present files still show, has
the present module. -/
theorem TemplateEntry.StylesFrom.isInlineStyle_now {seen : List Scene} {now : Scene}
    (h : entry.StylesFrom project seen path)
    (hreports : project.toolchain.pipeline.preprocessor.ReportsReads) (hnow : now.Follows seen)
    (hof : entry.OfTemplate project ⟨now.files, helpers⟩ path compiled) {id : Text}
    {scope : Option Text} {index : Option UInt64}
    (hasks : project.Asks id path (.inlineStyle scope index)) {style : CacheEntry}
    (hstyle : entry.styleCache.get? id = some style)
    (hrecords : ∀ record ∈ style.dependencies.entries, now.files.Shows record.1 record.2) :
    project.IsInlineStyle now.files path scope index (some (Session.styleModule style)) := by
  obtain ⟨scope', index', lang, hasks', hinline, scene, hscene, processed, hmade⟩ :=
    h id style hstyle
  -- the stylesheet was made of the resource that this id asks for
  obtain ⟨-, hrequest⟩ := hasks.unique hasks'
  obtain ⟨rfl, rfl⟩ : scope = scope' ∧ index = index' := Request.inlineStyle.inj hrequest
  have hprocess := hmade.process_now hreports (hnow.within scene hscene)
    (hnow.stampsTell scene hscene) hrecords
  exact (hof.isInlineStyle_iff hinline).mpr
    ⟨processed, hprocess, congrArg some hmade.styleModule_eq⟩

/-- A made stylesheet may be recorded to depend on its own file as well. -/
theorem CacheEntry.MadeIn.alsoOn {style : CacheEntry} {pipeline : StylePipeline}
    {request : StyleRequest} {processed : ProcessedStyle}
    (h : style.MadeIn pipeline files request [] processed) {key : CacheKey}
    (hkey : files.Shows path key) :
    CacheEntry.MadeIn { style with dependencies := style.dependencies.insert path key } pipeline
      files request [path] processed := by
  have hrecords : style.dependencies.Records files processed.dependencies := by
    have hall := h.dependencies
    rw [List.append_nil] at hall
    exact hall
  exact ⟨h.key, h.process, h.code, h.diagnostics, hrecords.insert hkey⟩

end

namespace Session

section

variable {project : Project} {seen : List Scene} {now origin : Scene}
  {templates : OrderedMap Text TemplateEntry} {stylesheets : OrderedMap Text CacheEntry}
  {path : FilePath}

/-- The session keeps templates that were compiled in some scenes. -/
def KeepsTemplates (session : Session) (project : Project) (seen : List Scene) (now : Scene)
    (stylesheets : OrderedMap Text CacheEntry) : Prop :=
  ∃ templates, session.Stands now templates stylesheets ∧ project.TemplatesFrom seen templates

/-! ## The owning template -/

/-- The template of a resource is brought up to date if it is kept; otherwise there is none. -/
theorem triple_owningTemplate (hnow : now.Follows seen)
    (hfrom : project.TemplatesFrom seen templates) (hseen : origin ∈ seen)
    (horigin : origin.Origin project now templates path) :
    Triple (Stands · now templates stylesheets) (owningTemplate project now.files path)
      (fun entry session => session.HasTemplate project seen now origin stylesheets path entry)
      (fun session => session.Stands now templates stylesheets ∧
        ((templates.get? path.text).isSome = true → project.Refuses now.files path)) := by
  unfold owningTemplate
  apply Triple.get_bind
  intro session hstands
  rw [hstands.templates]
  cases hkept : templates.get? path.text with
  | none => exact Triple.throw fun session hstands => ⟨hstands, fun h => (nomatch h)⟩
  | some old =>
      apply Triple.bind
      · apply (triple_templateEntry hnow hfrom hseen horigin).weaken_failed
        exact fun session hfailed => ⟨hfailed.1, fun _ => hfailed.2⟩
      · rintro ⟨entry, kept⟩
        apply triple_of_hasTemplate
        intro compiled templates' hof hfrom' hkept'
        have hhas : ∀ session : Session, session.Stands now templates' stylesheets →
            session.HasTemplate project seen now origin stylesheets path entry :=
          fun session hstands => ⟨⟨compiled, hof⟩, templates', hstands, hfrom', hkept'⟩
        cases kept with
        | true => exact Triple.pure hhas
        | false => exact Triple.bind triple_countMiss fun _ => Triple.pure hhas

/-! ## Scripts -/

/-- An inline script is answered as the present files specify it. -/
theorem triple_loadInlineScript (hnow : now.Follows seen)
    (hfrom : project.TemplatesFrom seen templates) (id : Text) (index : UInt64) :
    Triple (Stands · now templates stylesheets)
      (loadInlineScript project now.files id path index)
      (fun loaded session => project.IsInlineScript now.files path index loaded ∧
        session.KeepsTemplates project seen now stylesheets)
      (fun session => session.KeepsTemplates project seen now stylesheets ∧
        ((templates.get? path.text).isSome = true →
          ∀ loaded, ¬ project.IsInlineScript now.files path index loaded)) := by
  obtain ⟨origin, hseen, horigin⟩ := Scene.exists_origin hnow.mem hfrom path
  unfold loadInlineScript
  apply Triple.bind
  · apply (triple_owningTemplate hnow hfrom hseen horigin).weaken_failed
    rintro session ⟨hstands, hrefuses⟩
    refine ⟨⟨templates, hstands, hfrom⟩, ?_⟩
    rintro hkept loaded ⟨compiled, hcompiled, -⟩
    exact hrefuses hkept .empty compiled hcompiled
  · intro entry
    apply triple_of_hasTemplate
    intro compiled templates' hof hfrom' hkept'
    obtain ⟨plain, hplain, hscripts, -⟩ := hof.exists_compileIn_empty
    have hanswer : ∀ loaded, loaded = compiled.inlineScript? index →
        ∀ session : Session, session.Stands now templates' stylesheets →
          project.IsInlineScript now.files path index loaded ∧
            session.KeepsTemplates project seen now stylesheets := by
      intro loaded hloaded session hstands
      exact ⟨⟨plain, hplain, hloaded.trans (hscripts index).symm⟩, templates', hstands, hfrom'⟩
    rw [hof.scripts]
    cases hscript : compiled.scripts[index.toNat]? with
    | none =>
        have hnone : none = compiled.inlineScript? index := by
          rw [CompiledTemplate.inlineScript?, hscript]
          rfl
        exact Triple.bind (triple_emit _) fun _ => Triple.pure (hanswer none hnone)
    | some script =>
        simp only
        cases htext : script.text? with
        | none =>
            have hnone : none = compiled.inlineScript? index := by
              simp [CompiledTemplate.inlineScript?, hscript, htext]
            exact Triple.bind (triple_emit _) fun _ => Triple.pure (hanswer none hnone)
        | some contents =>
            refine Triple.pure (hanswer _ ?_)
            simp [CompiledTemplate.inlineScript?, hscript, htext]

/-! ## Stylesheets -/

variable {id : Text} {scope : Option Text} {index : Option UInt64} {entry : TemplateEntry}
  {compiled : CompiledTemplate} {content lang : Text}

theorem triple_makeInlineStyle (hreports : project.toolchain.pipeline.preprocessor.ReportsReads)
    (hmem : now ∈ seen) (hfrom : project.TemplatesFrom seen templates)
    (hof : entry.OfTemplate project ⟨now.files, origin.helpers⟩ path compiled)
    (hkept : templates.get? path.text = some entry)
    (hasks : project.Asks id path (.inlineStyle scope index))
    (hinline : inlineStyle? entry index = some (content, lang)) :
    Triple (Stands · now templates stylesheets)
      (some <$> makeInlineStyle project now.files id path scope entry content lang)
      (fun loaded session => project.IsInlineStyle now.files path scope index loaded ∧
        session.KeepsTemplates project seen now stylesheets)
      (fun session => session.KeepsTemplates project seen now stylesheets ∧
        ∀ loaded, ¬ project.IsInlineStyle now.files path scope index loaded) := by
  obtain ⟨source, -, hsource, -⟩ := Project.compileIn_eq_ok_iff.mp hof.compile
  change now.files.readText path = .ok source at hsource
  have hkey : now.files.Shows path entry.base.key := hof.key
  have hobserve := FileTree.observe_of_shows (FileTree.isFile_of_readText hsource) hkey
  unfold makeInlineStyle
  apply Triple.map
  apply Triple.bind triple_countMiss
  intro _
  apply Triple.bind
  · apply (triple_processStyle hreports content hobserve).weaken_failed
    rintro session ⟨hstands, hnone⟩
    refine ⟨⟨templates, hstands, hfrom⟩, ?_⟩
    intro loaded hloaded
    obtain ⟨processed, hprocess, -⟩ := (hof.isInlineStyle_iff hinline).mp hloaded
    exact hnone processed hprocess
  · intro made
    apply Triple.assuming
    rintro ⟨rfl, processed, hmade⟩
    have hstyle := hmade.alsoOn hkey
    obtain ⟨⟨scene, hscene, compiled', hof'⟩, hstyles⟩ := hfrom path.text entry hkept
    have hfrom' := hfrom.insert hscene (hof'.withStyles _)
      (hstyles.insert hasks hmem hstyle hinline)
    have hloaded := (hof.isInlineStyle_iff hinline).mpr
      ⟨processed, hmade.process, congrArg some hstyle.styleModule_eq⟩
    apply Triple.bind (triple_putTemplate path.text _)
    intro _
    apply Triple.pure
    intro session hstands
    exact ⟨hloaded, _, hstands, hfrom'⟩

/-- An inline stylesheet is answered as the present files specify it. -/
theorem triple_loadInlineStyle (hreports : project.toolchain.pipeline.preprocessor.ReportsReads)
    (hnow : now.Follows seen) (hfrom : project.TemplatesFrom seen templates)
    (hasks : project.Asks id path (.inlineStyle scope index)) :
    Triple (Stands · now templates stylesheets)
      (loadInlineStyle project now.files id path scope index)
      (fun loaded session => project.IsInlineStyle now.files path scope index loaded ∧
        session.KeepsTemplates project seen now stylesheets)
      (fun session => session.KeepsTemplates project seen now stylesheets ∧
        ((templates.get? path.text).isSome = true →
          ∀ loaded, ¬ project.IsInlineStyle now.files path scope index loaded)) := by
  obtain ⟨origin, hseen, horigin⟩ := Scene.exists_origin hnow.mem hfrom path
  unfold loadInlineStyle
  apply Triple.bind
  · apply (triple_owningTemplate hnow hfrom hseen horigin).weaken_failed
    rintro session ⟨hstands, hrefuses⟩
    refine ⟨⟨templates, hstands, hfrom⟩, ?_⟩
    rintro hkept loaded ⟨compiled, hcompiled, -⟩
    exact hrefuses hkept .empty compiled hcompiled
  · intro entry
    apply triple_of_hasTemplate
    intro compiled templates' hof hfrom' hkept'
    cases hinline : inlineStyle? entry index with
    | none =>
        apply Triple.bind (triple_emit _)
        intro _
        apply Triple.pure
        intro session hstands
        exact ⟨hof.isInlineStyle_none hinline scope, templates', hstands, hfrom'⟩
    | some found =>
        obtain ⟨content, lang⟩ := found
        have hmake : Triple (Stands · now templates' stylesheets)
            (some <$> makeInlineStyle project now.files id path scope entry content lang)
            (fun loaded session => project.IsInlineStyle now.files path scope index loaded ∧
              session.KeepsTemplates project seen now stylesheets)
            (fun session => session.KeepsTemplates project seen now stylesheets ∧
              ((templates.get? path.text).isSome = true →
                ∀ loaded, ¬ project.IsInlineStyle now.files path scope index loaded)) := by
          apply (triple_makeInlineStyle hreports hnow.mem hfrom' hof hkept' hasks
            hinline).weaken_failed
          exact fun session hfailed => ⟨hfailed.1, fun _ => hfailed.2⟩
        cases hstyle : entry.styleCache.get? id with
        | none => exact hmake
        | some style =>
            apply Triple.bind (triple_isValid entry.base.key style)
            intro valid
            apply Triple.assuming
            rintro ⟨hvalid, -⟩
            cases valid with
            | false => exact hmake
            | true =>
                obtain ⟨-, hstyles⟩ := hfrom' path.text entry hkept'
                obtain ⟨-, hrecords⟩ := hvalid rfl
                have hloaded := hstyles.isInlineStyle_now hreports hnow hof hasks hstyle hrecords
                apply Triple.bind triple_countHit
                intro _
                apply Triple.pure
                intro session hstands
                exact ⟨hloaded, templates', hstands, hfrom'⟩

/-! ## Both kinds -/

/-- An inline resource is answered as the present files specify it. -/
theorem triple_serve_resource (hreports : project.toolchain.pipeline.preprocessor.ReportsReads)
    (hnow : now.Follows seen) (hfrom : project.TemplatesFrom seen templates) {request : Request}
    (hasks : project.Asks id path request) (hinline : request.isInline = true) :
    Triple (Stands · now templates stylesheets) (serve project now.files id path request)
      (fun loaded session => project.IsResource now.files path request loaded ∧
        session.KeepsTemplates project seen now stylesheets)
      (fun session => session.KeepsTemplates project seen now stylesheets ∧
        ((templates.get? path.text).isSome = true →
          ∀ loaded, ¬ project.IsResource now.files path request loaded)) := by
  cases request with
  | template => cases hinline
  | inlineScript index => exact triple_loadInlineScript hnow hfrom id index
  | inlineStyle scope index => exact triple_loadInlineStyle hreports hnow hfrom hasks
  | stylesheet scope => cases hinline

end

end Session

end ComponentLoader
