import ComponentLoader.Proofs.Session.Scene
set_option autoImplicit false

/-!
# Loading stylesheets (SPEC §4.3, §4.5)

The module of a stylesheet is specified by the files alone, with no session: `IsStylesheet`.  Main
statement: in every scene, a session whose entries were made from scenes before answers the module
so specified, whether it kept the entry or made it anew, and its entries are again of that kind.
-/

namespace ComponentLoader

/-! ## Modules of stylesheets -/

/-- The module of a processed stylesheet that is also stale when a file in `also` changes. -/
def ProcessedStyle.loaded (processed : ProcessedStyle) (also : List FilePath) : LoadedModule where
  contents := processed.code
  loader := .style
  watchFiles := FilePath.inMapOrder (processed.dependencies ++ also)

/-- What is asked of the pipeline for the stylesheet at a path. -/
def Project.stylesheetRequest (project : Project) (path : FilePath) (scope : Option Text) :
    StyleRequest :=
  Session.styleRequest project.settings path scope
    ((path.kind?.bind (StyleKind.ofLang? project.settings.style.preprocess)).getD .css)

/-- The module that a stylesheet has in a file tree. -/
def Project.IsStylesheet (project : Project) (files : FileTree) (path : FilePath)
    (scope : Option Text) (loaded : LoadedModule) : Prop :=
  ∃ source processed, files.readText path = .ok source ∧
    project.toolchain.pipeline.process files source (project.stylesheetRequest path scope) =
      .ok processed ∧
    loaded = processed.loaded []

section

variable {project : Project} {files : FileTree} {path : FilePath} {scope : Option Text}

theorem Project.IsStylesheet.unique {loaded loaded' : LoadedModule}
    (h : project.IsStylesheet files path scope loaded)
    (h' : project.IsStylesheet files path scope loaded') : loaded = loaded' := by
  obtain ⟨source, processed, hsource, hprocess, rfl⟩ := h
  obtain ⟨source', processed', hsource', hprocess', rfl⟩ := h'
  obtain rfl : source = source' := Except.ok.inj (hsource.symm.trans hsource')
  obtain rfl : processed = processed' := Except.ok.inj (hprocess.symm.trans hprocess')
  rfl

/-- The module of an entry is that of what it holds. -/
theorem CacheEntry.MadeIn.styleModule_eq {entry : CacheEntry} {pipeline : StylePipeline}
    {request : StyleRequest} {also : List FilePath} {processed : ProcessedStyle}
    (h : entry.MadeIn pipeline files request also processed) :
    Session.styleModule entry = processed.loaded also := by
  unfold Session.styleModule ProcessedStyle.loaded
  rw [h.code, h.diagnostics, h.dependencies.keys]

/-! ## Entries of stylesheets -/

/-- The entry was made of the stylesheet at a path as it was in a file tree. -/
structure CacheEntry.OfStylesheet (entry : CacheEntry) (project : Project) (files : FileTree)
    (path : FilePath) (scope : Option Text) (processed : ProcessedStyle) : Prop where
  source : files.readText path = .ok entry.source
  made : entry.MadeIn project.toolchain.pipeline files (project.stylesheetRequest path scope) []
    processed

theorem CacheEntry.OfStylesheet.isStylesheet {entry : CacheEntry} {processed : ProcessedStyle}
    (h : entry.OfStylesheet project files path scope processed) :
    project.IsStylesheet files path scope (Session.styleModule entry) :=
  ⟨entry.source, processed, h.source, h.made.process, h.made.styleModule_eq⟩

/-- An entry whose own identity and records the present files still show has the present module. -/
theorem CacheEntry.OfStylesheet.isStylesheet_now {entry : CacheEntry} {processed : ProcessedStyle}
    (h : entry.OfStylesheet project files path scope processed)
    (hreports : project.toolchain.pipeline.preprocessor.ReportsReads) {now : FileTree}
    (hwithin : now.Within files) (htell : now.StampsTell files)
    (hkey : now.Shows path entry.key)
    (hrecords : ∀ record ∈ entry.dependencies.entries, now.Shows record.1 record.2) :
    project.IsStylesheet now path scope (Session.styleModule entry) := by
  have hsource : now.readText path = .ok entry.source :=
    FileTree.readText_eq_of_shows htell hkey h.made.key h.source
  have hprocess := h.made.process_now hreports hwithin htell hrecords
  exact ⟨entry.source, processed, hsource, hprocess, h.made.styleModule_eq⟩

end

/-- Every entry was made, in one of some scenes, of the stylesheet that its id asks for. -/
def Project.StylesheetsFrom (project : Project) (seen : List Scene)
    (stylesheets : OrderedMap Text CacheEntry) : Prop :=
  ∀ id entry, stylesheets.get? id = some entry →
    ∃ path scope, project.Asks id path (.stylesheet scope) ∧
      ∃ scene ∈ seen, ∃ processed, entry.OfStylesheet project scene.files path scope processed

section

variable {project : Project} {seen : List Scene} {stylesheets : OrderedMap Text CacheEntry}

theorem Project.stylesheetsFrom_empty : project.StylesheetsFrom seen .empty := by
  intro id entry h
  cases h

theorem Project.StylesheetsFrom.mono (h : project.StylesheetsFrom seen stylesheets)
    {seen' : List Scene} (hseen : ∀ scene ∈ seen, scene ∈ seen') :
    project.StylesheetsFrom seen' stylesheets := by
  intro id entry hentry
  obtain ⟨path, scope, hasks, scene, hmem, hmade⟩ := h id entry hentry
  exact ⟨path, scope, hasks, scene, hseen scene hmem, hmade⟩

theorem Project.StylesheetsFrom.insert (h : project.StylesheetsFrom seen stylesheets) {id : Text}
    {path : FilePath} {scope : Option Text} (hasks : project.Asks id path (.stylesheet scope))
    {scene : Scene} (hscene : scene ∈ seen) {entry : CacheEntry} {processed : ProcessedStyle}
    (hentry : entry.OfStylesheet project scene.files path scope processed) :
    project.StylesheetsFrom seen (stylesheets.insert id entry) := by
  intro asked found hfound
  rcases OrderedMap.get?_insert_eq_some hfound with ⟨rfl, rfl⟩ | hkept
  · exact ⟨path, scope, hasks, scene, hscene, processed, hentry⟩
  · exact h asked found hkept

end

namespace Session

section

variable {project : Project} {now : Scene} {templates : OrderedMap Text TemplateEntry}
  {stylesheets : OrderedMap Text CacheEntry}

/-! ## Processing -/

/-- A processed stylesheet is kept with the identities of all files that it was made from. -/
theorem triple_processStyle (hreports : project.toolchain.pipeline.preprocessor.ReportsReads)
    {key : CacheKey} (source : Text) {request : StyleRequest}
    (hkey : IdentityMemo.observe now.files request.file = .ok key) :
    Triple (Stands · now templates stylesheets) (processStyle project now.files key source request)
      (fun entry session => session.Stands now templates stylesheets ∧ entry.source = source ∧
        ∃ processed, entry.MadeIn project.toolchain.pipeline now.files request [] processed)
      (fun session => session.Stands now templates stylesheets ∧
        ∀ processed,
          project.toolchain.pipeline.process now.files source request ≠ .ok processed) := by
  unfold processStyle
  apply Triple.bind (triple_countStyleWork _)
  intro _
  cases hprocess : project.toolchain.pipeline.process now.files source request with
  | error e =>
      exact Triple.throw fun session hstands => ⟨hstands, fun processed h => (nomatch h)⟩
  | ok processed =>
      have hobserved := StylePipeline.exists_observe_of_process hreports.loadsFiles hprocess
        ⟨key, hkey⟩
      apply Triple.bind (triple_recordIdentities hobserved)
      intro dependencies
      apply Triple.pure
      rintro session ⟨hstands, hrecords⟩
      refine ⟨hstands, rfl, processed, ?_⟩
      exact {
        key := FileTree.shows_of_observe hkey
        process := hprocess
        code := rfl
        diagnostics := rfl
        dependencies := by
          rw [List.append_nil]
          exact hrecords }

/-! ## Making and loading -/

variable {seen : List Scene} {id : Text} {path : FilePath} {scope : Option Text}

theorem triple_makeStylesheet (hreports : project.toolchain.pipeline.preprocessor.ReportsReads)
    (hmem : now ∈ seen) (hfrom : project.StylesheetsFrom seen stylesheets)
    (hasks : project.Asks id path (.stylesheet scope)) {key : CacheKey}
    (hkey : now.files.Shows path key) :
    Triple (Stands · now templates stylesheets)
      (makeStylesheet project now.files id path scope key)
      (fun loaded session => project.IsStylesheet now.files path scope loaded ∧
        ∃ stylesheets, session.Stands now templates stylesheets ∧
          project.StylesheetsFrom seen stylesheets)
      (fun session => session.Stands now templates stylesheets ∧
        ∀ loaded, ¬ project.IsStylesheet now.files path scope loaded) := by
  unfold makeStylesheet
  apply Triple.bind triple_countMiss
  intro _
  cases htext : now.files.readText path with
  | error fault =>
      apply Triple.throw
      intro session hstands
      refine ⟨hstands, ?_⟩
      rintro loaded ⟨source, processed, hsource, -⟩
      rw [htext] at hsource
      cases hsource
  | ok source =>
      have hobserve := FileTree.observe_of_shows (FileTree.isFile_of_readText htext) hkey
      apply Triple.bind
      · apply (triple_processStyle hreports source hobserve).weaken_failed
        rintro session ⟨hstands, hnone⟩
        refine ⟨hstands, ?_⟩
        rintro loaded ⟨source', processed, hsource, hprocessed, -⟩
        obtain rfl : source = source' := Except.ok.inj (htext.symm.trans hsource)
        exact hnone processed hprocessed
      · intro entry
        apply Triple.assuming
        rintro ⟨rfl, processed, hmade⟩
        have hentry : entry.OfStylesheet project now.files path scope processed := ⟨htext, hmade⟩
        apply Triple.bind (triple_putStylesheet id entry)
        intro _
        apply Triple.pure
        intro session hstands
        exact ⟨hentry.isStylesheet, _, hstands, hfrom.insert hasks hmem hentry⟩

/-- A stylesheet is answered as the present files specify it. -/
theorem triple_loadStylesheet (hreports : project.toolchain.pipeline.preprocessor.ReportsReads)
    (hnow : now.Follows seen) (hfrom : project.StylesheetsFrom seen stylesheets)
    (hasks : project.Asks id path (.stylesheet scope)) :
    Triple (Stands · now templates stylesheets)
      (loadStylesheet project now.files id path scope)
      (fun loaded session => project.IsStylesheet now.files path scope loaded ∧
        ∃ stylesheets, session.Stands now templates stylesheets ∧
          project.StylesheetsFrom seen stylesheets)
      (fun session => session.Stands now templates stylesheets ∧
        ∀ loaded, ¬ project.IsStylesheet now.files path scope loaded) := by
  unfold loadStylesheet
  apply Triple.bind
  · apply (triple_identity path).weaken_failed
    rintro session ⟨hstands, hnone⟩
    refine ⟨hstands, ?_⟩
    rintro loaded ⟨source, processed, hsource, -⟩
    obtain ⟨key, hkey⟩ := FileTree.exists_observe_of_readText hsource
    exact hnone key hkey
  · intro key
    apply Triple.assuming
    intro hkey
    apply Triple.get_bind
    intro session hstands
    rw [hstands.stylesheets]
    cases hentry : stylesheets.get? id with
    | none => exact triple_makeStylesheet hreports hnow.mem hfrom hasks hkey
    | some entry =>
        -- the entry was made of the file that this id asks for
        obtain ⟨path', scope', hasks', scene, hscene, processed, hof⟩ := hfrom id entry hentry
        obtain ⟨rfl, hrequest⟩ := hasks.unique hasks'
        obtain rfl : scope = scope' := Request.stylesheet.inj hrequest
        apply Triple.bind (triple_isValid key entry)
        intro valid
        apply Triple.assuming
        rintro ⟨hvalid, -⟩
        cases valid with
        | false => exact triple_makeStylesheet hreports hnow.mem hfrom hasks hkey
        | true =>
            obtain ⟨rfl, hrecords⟩ := hvalid rfl
            have hloaded := hof.isStylesheet_now hreports (hnow.within scene hscene)
              (hnow.stampsTell scene hscene) hkey hrecords
            apply Triple.bind triple_countHit
            intro _
            apply Triple.pure
            intro session hstands
            exact ⟨hloaded, stylesheets, hstands, hfrom⟩

end

end Session

end ComponentLoader
