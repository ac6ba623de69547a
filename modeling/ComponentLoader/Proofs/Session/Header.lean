import ComponentLoader.Proofs.Session.Reply
import ComponentLoader.Template.Statement
set_option autoImplicit false

/-!
# Loading what a header asks for (SPEC §4.5, §8)

The module of a template begins with statements that load its scripts and stylesheets through
their ids, and after the template a bundler asks for those.  A session serves an id with the path
of the template exactly if the id is for an element that is inside the template and not empty.
All scripts of a header are; of its stylesheets the empty ones are not, for which the session
reports a missing resource.

The moment may be any that is reached, and what is kept may be older than the pass, as long as the
entry of the template is of its present source.
-/

namespace ComponentLoader

/-! ## Serving resources -/

/-- The module of the inline resource that a request is for: a script as it stands in the template,
a stylesheet as the pipeline makes it of what stands there. -/
inductive Project.IsInlineModule (project : Project) (path : FilePath) (parsed : ParsedTemplate) :
    Request → LoadedModule → Prop where
  | script {index : UInt64} {text lang : Text}
      (hresource : parsed.resource? (.inlineScript index) = some (text, lang)) :
      IsInlineModule project path parsed (.inlineScript index)
        { contents := text, loader := .ofScriptLang lang }
  | style {scope : Option Text} {index : Option UInt64} {text lang : Text} {files : FileTree}
      {processed : ProcessedStyle} {loaded : LoadedModule}
      (hresource : parsed.resource? (.inlineStyle scope index) = some (text, lang))
      (hprocess : project.toolchain.pipeline.process files text
        (project.inlineRequest path scope lang) = .ok processed)
      (hcontents : loaded.contents = processed.code) (hloader : loaded.loader = .style) :
      IsInlineModule project path parsed (.inlineStyle scope index) loaded

theorem Project.IsInlineModule.isSome_resource? {project : Project} {path : FilePath}
    {parsed : ParsedTemplate} {request : Request} {loaded : LoadedModule}
    (h : project.IsInlineModule path parsed request loaded) :
    (parsed.resource? request).isSome = true := by
  cases h with
  | script hresource => rw [hresource]; rfl
  | style hresource hprocess hcontents hloader => rw [hresource]; rfl

/-- A load of the id answers the module of an inline resource of the template or reports an error of
the pipeline, and no diagnostic is left. -/
def Moment.Serves (moment : Moment) (project : Project) (path : FilePath) (parsed : ParsedTemplate)
    (id : Text) : Prop :=
  ∃ request, project.Asks id path request ∧
    ((∃ loaded, project.IsInlineModule path parsed request loaded ∧
        moment.Answers project id (some loaded)) ∨
      request.isInline = true ∧ ∃ e, moment.Fails project id (.style e)) ∧
    (moment.next project (.load id)).session.sink = moment.session.sink

/-- The session has an entry of a parsed template that may be used, with stylesheets that
were made of its texts. -/
def Session.Offers (session : Session) (project : Project) (files : FileTree) (path : FilePath)
    (parsed : ParsedTemplate) : Prop :=
  ∃ entry, session.templates.get? path.text = some entry ∧
    entry.base.Usable files session.identities path ∧
    entry.HasParts project.settings path parsed ∧ entry.StylesMade project path

namespace Session

variable {project : Project} {files : FileTree} {path : FilePath} {parsed : ParsedTemplate}
  {session next : Session} {id : Text} {request : Request}

/-- The code of the module is that of a stylesheet which the pipeline has
made, in whatever files. -/
def HasMadeCode (project : Project) (text : Text) (style : StyleRequest) (loaded : LoadedModule) :
    Prop :=
  (∃ files processed, project.toolchain.pipeline.process files text style = .ok processed ∧
    loaded.contents = processed.code) ∧ loaded.loader = .style

/-- A template that the session offers is found as it is. -/
theorem Offers.findsOwner (h : session.Offers project files path parsed) :
    FindsOwner project files path parsed (HasMadeCode project) id session := by
  obtain ⟨entry, hentry, husable, hparts, hmade⟩ := h
  intro outcome howner
  obtain ⟨memo, -, rfl⟩ := howner.of_usable hentry husable
  refine ⟨entry, _, rfl, hparts, ?_, rfl⟩
  intro style hstyle
  obtain ⟨scope, index, content, lang, hasks, hinline, hcode⟩ := hmade id style hstyle
  exact ⟨scope, index, content, lang, hasks, hinline, hcode, rfl⟩

/-- What can come of asking for an inline resource of a template that the session offers. -/
inductive Delivery (project : Project) (path : FilePath) (parsed : ParsedTemplate) (id : Text)
    (session : Session) (request : Request) : Outcome (Option LoadedModule) → Prop where
  | missing {next : Session} (hnone : parsed.resource? request = none)
      (hsink : next.sink = session.sink.emit (missingResource id path)) :
      Delivery project path parsed id session request (.ok none next)
  | delivered {loaded : LoadedModule} {next : Session}
      (hmodule : project.IsInlineModule path parsed request loaded)
      (hsink : next.sink = session.sink) :
      Delivery project path parsed id session request (.ok (some loaded) next)
  | failed {e : StyleError} {next : Session} (hthere : (parsed.resource? request).isSome = true)
      (hsink : next.sink = session.sink) :
      Delivery project path parsed id session request (.error (.style e) next)

theorem ServeOutcome.delivery (hloads : project.toolchain.pipeline.preprocessor.LoadsFiles)
    {outcome : Outcome (Option LoadedModule)}
    (h : ServeOutcome project files id path session request outcome)
    (hasks : project.Asks id path request) (hinline : request.isInline = true)
    (hoffers : session.Offers project files path parsed) {source : Text}
    (hsource : files.readText path = .ok source) :
    Delivery project path parsed id session request outcome := by
  have hreply := h.reply hloads hasks hinline hoffers.findsOwner hsource
    fun _ _ processed hprocess => ⟨⟨files, processed, hprocess, rfl⟩, rfl⟩
  cases hreply with
  | missing hnone hsink => exact .missing hnone hsink
  | script hresource hsink => exact .delivered (.script hresource) hsink
  | style hresource hcomes hsink =>
      obtain ⟨⟨tree, processed, hprocess, hcontents⟩, hloader⟩ := hcomes
      exact .delivered (.style hresource hprocess hcontents hloader) hsink
  | refused hresource hprocess hsink => exact .failed (by rw [hresource]; rfl) hsink

end Session

namespace Moment

variable {project : Project} {moment : Moment} {path : FilePath} {parsed : ParsedTemplate}
  {source id : Text} {request : Request}

/-- A load of an id for an inline resource: there is no such resource, and a diagnostic says so, or
there is one, and it is answered or refused by the pipeline. -/
theorem load_inline (hloads : project.toolchain.pipeline.preprocessor.LoadsFiles)
    (hoffers : moment.session.Offers project moment.files path parsed)
    (hsource : moment.files.readText path = .ok source) (hasks : project.Asks id path request)
    (hinline : request.isInline = true) :
    (parsed.resource? request = none ∧ moment.Answers project id none ∧
        (moment.next project (.load id)).session.sink =
          moment.session.sink.emit (Session.missingResource id path)) ∨
      ((parsed.resource? request).isSome = true ∧
        ((∃ loaded, project.IsInlineModule path parsed request loaded ∧
            moment.Answers project id (some loaded)) ∨
          request.isInline = true ∧ ∃ e, moment.Fails project id (.style e)) ∧
        (moment.next project (.load id)).session.sink = moment.session.sink) := by
  have houtcome := Session.serve_outcome project moment.files id path request moment.session
  rw [← Session.load_of_asks hasks] at houtcome
  have hdelivery := houtcome.delivery hloads hasks hinline hoffers hsource
  generalize hload : Session.load project moment.files id moment.session = outcome at hdelivery
  cases hdelivery with
  | missing hnone hsink =>
      obtain ⟨hanswer, hnext⟩ := answers_of_load hload
      exact Or.inl ⟨hnone, hanswer, hnext ▸ hsink⟩
  | delivered hmodule hsink =>
      obtain ⟨hanswer, hnext⟩ := answers_of_load hload
      exact Or.inr ⟨hmodule.isSome_resource?, Or.inl ⟨_, hmodule, hanswer⟩, hnext ▸ hsink⟩
  | failed hthere hsink =>
      obtain ⟨hfails, hnext⟩ := fails_of_load hload
      exact Or.inr ⟨hthere, Or.inr ⟨hinline, _, hfails⟩, hnext ▸ hsink⟩

/-- An id is served exactly if it is for a resource that the template has. -/
theorem serves_iff (hloads : project.toolchain.pipeline.preprocessor.LoadsFiles)
    (hoffers : moment.session.Offers project moment.files path parsed)
    (hsource : moment.files.readText path = .ok source) (hasks : project.Asks id path request) :
    moment.Serves project path parsed id ↔ (parsed.resource? request).isSome = true := by
  constructor
  · rintro ⟨request', hasks', hserved, -⟩
    obtain ⟨-, rfl⟩ := hasks.unique hasks'
    rcases hserved with ⟨loaded, hmodule, -⟩ | ⟨hinline, e, next, hfails⟩
    · exact hmodule.isSome_resource?
    · rcases load_inline hloads hoffers hsource hasks hinline with ⟨-, ⟨_, hok⟩, -⟩ | ⟨hthere, -⟩
      · rw [hfails] at hok
        cases hok
      · exact hthere
  · intro hthere
    have hinline : request.isInline = true := by
      cases request with
      | template => cases hthere
      | inlineScript index => rfl
      | inlineStyle scope index => rfl
      | stylesheet scope => cases hthere
    rcases load_inline hloads hoffers hsource hasks hinline with ⟨hnone, -⟩ | ⟨-, hserved⟩
    · rw [hnone] at hthere
      cases hthere
    · exact ⟨request, hasks, hserved⟩

end Moment

/-! ## Loading the template -/

section

variable {project : Project} {moment : Moment} {path : FilePath} {parsed : ParsedTemplate}
  {source : Text}

/-- A template that can be read and parsed is answered with its header in front, and is offered from
then on. -/
theorem Moment.offers_of_parsed (reached : moment.Reached project)
    (hasks : project.Asks path.text path .template)
    (hsource : moment.files.readText path = .ok source)
    (hparsed : (project.toolchain.parser source).result = .ok parsed)
    (hcurrent : ∀ entry, moment.session.templates.get? path.text = some entry →
      moment.session.identities.Gives moment.files path entry.base.key →
      entry.base.source = source) :
    (∃ loaded rest, moment.Answers project path.text (some loaded) ∧
      loaded.contents = Statement.code (Compile.header project.settings path parsed) ++ rest) ∧
      (moment.next project (.load path.text)).session.Offers project moment.files path parsed := by
  have hmade := (reached.run [.load path.text]).stylesMade path
  have houtcome := Session.serve_outcome project moment.files path.text path .template
    moment.session
  rw [← Session.load_of_asks hasks] at houtcome
  generalize hload : Session.load project moment.files path.text moment.session = outcome
    at houtcome
  cases houtcome with
  | templateFailed hfailed => exact (Session.EntryOutcome.not_error hsource hparsed hfailed).elim
  | ownerFailed hinline howner => cases hinline
  | @template entry kept next hentry =>
      obtain ⟨hanswer, hnext⟩ := Moment.answers_of_load hload
      obtain ⟨⟨scene, compiled, hcompiled⟩, hsame⟩ :=
        hentry.compiledBy reached.compiled hsource hcurrent
      obtain ⟨hparts, rest, hcontents⟩ := hcompiled.hasParts hsame hparsed
      obtain ⟨hkept, hpinned⟩ := hentry.pinned
      refine ⟨⟨_, rest, hanswer, hcontents⟩, entry, ?_, ?_, hparts, hmade entry ?_⟩
      · rw [hnext]
        exact hkept
      · rw [hnext]
        exact hpinned.usable moment.files
      · show (moment.next project (.load path.text)).session.templates.get? path.text = some entry
        rw [hnext]
        exact hkept

end

/-! ## Loading what the header asks for -/

/-- Every id in the header of a template that has the path of the template is served. -/
def Moment.ServesHeader (moment : Moment) (project : Project) (path : FilePath)
    (parsed : ParsedTemplate) : Prop :=
  ∀ statement ∈ Compile.header project.settings path parsed, ∀ id,
    statement.loadedId? = some id → ModuleId.pathOf id = path →
    moment.Serves project path parsed id

/-- The template has what the header asks for among its stylesheets: none inside it is empty, and an
id that is made of a reference and yet has the path of the template is for one of its resources. -/
structure Project.HoldsStylesheets (project : Project) (path : FilePath) (parsed : ParsedTemplate) :
    Prop where
  inline : ∀ node ∈ parsed.stylesheets, node.href = none → node.content ≠ some []
  external : ∀ node ∈ parsed.stylesheets, ∀ href, node.href = some href →
    let id := Compile.externalStyleId href (Compile.scopeToken project.settings path)
    ModuleId.pathOf id = path →
      ∃ request, project.Asks id path request ∧ (parsed.resource? request).isSome = true

section

variable {project : Project} {path : FilePath}

theorem Compile.asks_scriptId (hasks : project.Asks path.text path .template) (index : Nat) :
    project.Asks (scriptId path index) path (.inlineScript (.ofNat index)) :=
  hasks.part trivial

theorem Compile.asks_styleId (hscope : project.settings.style.scope = none)
    (hasks : project.Asks path.text path .template) (index : Nat) :
    project.Asks (styleId path (scopeToken project.settings path) index) path
      (.inlineStyle (some (scopeToken project.settings path)) (some (.ofNat index))) :=
  hasks.part (writable_of_scopeToken hscope _)

variable {parsed : ParsedTemplate} {source : Text} {moment : Moment}

/-- Where a template is offered, its header is served exactly if the stylesheets are there: the
scripts in it always are. -/
theorem Moment.servesHeader_iff (hloads : project.toolchain.pipeline.preprocessor.LoadsFiles)
    (hbundle : project.settings.style.bundle = true)
    (hscope : project.settings.style.scope = none)
    (hasks : project.Asks path.text path .template)
    (hsource : moment.files.readText path = .ok source) (hsize : source.length < UInt64.size)
    (hread : parsed.ReadFrom source)
    (hoffers : moment.session.Offers project moment.files path parsed) :
    moment.ServesHeader project path parsed ↔ project.HoldsStylesheets path parsed := by
  have hserves {id : Text} {request : Request} (hid : project.Asks id path request) :=
    serves_iff hloads hoffers hsource hid
  have hscripts := Nat.lt_of_le_of_lt hread.scripts_length hsize
  have hstyles := Nat.lt_of_le_of_lt hread.stylesheets_length hsize
  unfold ServesHeader Compile.header
  rw [if_pos hbundle]
  constructor
  · intro h
    -- every stylesheet is in the header
    have hstyle {index : Nat} {node : ResourceNode} (hnode : parsed.stylesheets[index]? = some node)
        (id : Text) (hid : id = (Compile.styleResource path
          (Compile.scopeToken project.settings path) node index).url) :=
      h _ (List.mem_append_right _ (Compile.mem_styleHeader_iff.mpr ⟨index, node, hnode, rfl⟩)) id
        (congrArg some hid.symm)
    refine ⟨?_, ?_⟩
    · intro node hmem hinline
      obtain ⟨index, hnode⟩ := List.mem_iff_getElem?.mp hmem
      have hid := Compile.asks_styleId hscope hasks index
      have hserved := hstyle hnode (Compile.styleId path _ index)
        (by simp [Compile.styleResource, hinline]) hid.path_eq.symm
      exact (isSome_resourceAt?_iff hstyles hread.stylesheets_hasText hnode hinline).mp
        ((hserves hid).mp hserved)
    · intro node hmem href hhref id hpath
      obtain ⟨index, hnode⟩ := List.mem_iff_getElem?.mp hmem
      have hserved := hstyle hnode id (by simp [Compile.styleResource, hhref, id]) hpath
      have ⟨request, hid, _⟩ := hserved
      exact ⟨request, hid, (hserves hid).mp hserved⟩
  · rintro ⟨hfull, hexternal⟩ statement hmem id hloaded hpath
    rcases List.mem_append.mp hmem with hscript | hstyle
    · obtain ⟨index, node, hnode, hinline, hcontent, rfl⟩ := Compile.mem_scriptHeader_iff.mp hscript
      cases hloaded
      exact (hserves (Compile.asks_scriptId hasks index)).mpr
        ((isSome_resourceAt?_iff hscripts hread.scripts_hasText hnode hinline).mpr hcontent)
    · obtain ⟨index, node, hnode, rfl⟩ := Compile.mem_styleHeader_iff.mp hstyle
      have hmemNode := List.mem_of_getElem? hnode
      cases hloaded
      cases hhref : node.href with
      | none =>
          simp only [Compile.styleResource, hhref]
          exact (hserves (Compile.asks_styleId hscope hasks index)).mpr
            ((isSome_resourceAt?_iff hstyles hread.stylesheets_hasText hnode hhref).mpr
              (hfull node hmemNode hhref))
      | some href =>
          simp only [Compile.styleResource, hhref] at hpath ⊢
          obtain ⟨request, hid, hthere⟩ := hexternal node hmemNode href hhref hpath
          exact (hserves hid).mpr hthere

/-- An empty stylesheet is in the header and is reported as missing. -/
theorem Moment.missing_of_empty (hloads : project.toolchain.pipeline.preprocessor.LoadsFiles)
    (hbundle : project.settings.style.bundle = true)
    (hscope : project.settings.style.scope = none)
    (hasks : project.Asks path.text path .template)
    (hsource : moment.files.readText path = .ok source) (hsize : source.length < UInt64.size)
    (hread : parsed.ReadFrom source)
    (hoffers : moment.session.Offers project moment.files path parsed) {index : Nat}
    {node : ResourceNode} (hnode : parsed.stylesheets[index]? = some node)
    (hinline : node.href = none) (hempty : node.content = some []) :
    let id := Compile.styleId path (Compile.scopeToken project.settings path) index
    .effect id ∈ Compile.header project.settings path parsed ∧
      moment.Answers project id none ∧
      (moment.next project (.load id)).session.sink =
        moment.session.sink.emit (Session.missingResource id path) := by
  intro id
  have hid := Compile.asks_styleId hscope hasks index
  have hstyles := Nat.lt_of_le_of_lt hread.stylesheets_length hsize
  have hmissing : ¬ (resourceAt? parsed.stylesheets (.ofNat index)).isSome = true := by
    rw [isSome_resourceAt?_iff hstyles hread.stylesheets_hasText hnode hinline]
    exact fun hfull => hfull hempty
  refine ⟨?_, ?_⟩
  · unfold Compile.header
    rw [if_pos hbundle]
    refine List.mem_append_right _ (Compile.mem_styleHeader_iff.mpr ⟨index, node, hnode, ?_⟩)
    simp [Compile.styleResource, hinline, id]
  · rcases load_inline hloads hoffers hsource hid rfl with ⟨-, hanswer⟩ | ⟨hthere, -⟩
    · exact hanswer
    · exact absurd hthere hmissing

end

/-! ## Headers of templates -/

/-- The module of a template begins with its header.  After the template was loaded, a load of an id
in the header that has the path of the template answers the inline resource or reports an error of
the pipeline, and leaves no diagnostic, for all of these ids exactly if the stylesheets are there.
For each empty stylesheet there is no answer but a diagnostic. -/
theorem header_served_iff {project : Project} (hparser : project.toolchain.parser = parseMarkup)
    (hloads : project.toolchain.pipeline.preprocessor.LoadsFiles)
    (hbundle : project.settings.style.bundle = true)
    (hscope : project.settings.style.scope = none) {moment : Moment}
    (reached : moment.Reached project) {path : FilePath}
    (hasks : project.Asks path.text path .template) {source : Text}
    (hsource : moment.files.readText path = .ok source) (hsize : source.length < UInt64.size)
    {parsed : ParsedTemplate} (hparsed : (parseMarkup source).result = .ok parsed)
    (hcurrent : ∀ entry, moment.session.templates.get? path.text = some entry →
      moment.session.identities.Gives moment.files path entry.base.key →
      entry.base.source = source) :
    let loaded := moment.next project (.load path.text)
    (∃ answer rest, moment.Answers project path.text (some answer) ∧
        answer.contents = Statement.code (Compile.header project.settings path parsed) ++ rest) ∧
      (loaded.ServesHeader project path parsed ↔ project.HoldsStylesheets path parsed) ∧
      ∀ index node, parsed.stylesheets[index]? = some node → node.href = none →
        node.content = some [] →
        let id := Compile.styleId path (Compile.scopeToken project.settings path) index
        .effect id ∈ Compile.header project.settings path parsed ∧
          loaded.Answers project id none ∧
          (loaded.next project (.load id)).session.sink =
            loaded.session.sink.emit {
              severity := .warning
              code := ⟨.warning, 2⟩
              message := "`" ++ id ++ "` does not address an inline resource"
              file := some path
              location := none
              notes := [] } := by
  intro loaded
  have hread := readFrom_of_parseMarkup hparsed
  obtain ⟨hanswer, hoffered⟩ := Moment.offers_of_parsed reached hasks hsource
    (hparser ▸ hparsed) hcurrent
  -- a load changes no file
  have hoffers : loaded.session.Offers project loaded.files path parsed := hoffered
  have hstill : loaded.files.readText path = .ok source := hsource
  refine ⟨hanswer, ?_, ?_⟩
  · exact Moment.servesHeader_iff hloads hbundle hscope hasks hstill hsize hread hoffers
  · intro index node hnode hinline hempty
    exact Moment.missing_of_empty hloads hbundle hscope hasks hstill hsize hread hoffers
      hnode hinline
      hempty

/-- The plain settings with scope tokens that are made from paths. -/
def pathScopeSettings : Settings :=
  { plainSettings with style := { plainSettings.style with scope := none } }

/-- A template with two scripts and two stylesheets, of which the first script is empty, and one
with an empty stylesheet only. -/
def cardTree : FileTree where
  entries := [
    ([], ⟨1, 0, .directory⟩),
    (["card.html".toList], ⟨2, 0, .file (Text.utf8 "<p></p><style></style>")⟩),
    (["panel.html".toList],
      ⟨3, 0, .file (Text.utf8 "<script></script><script>run()</script><style>p {}</style>")⟩)]
  workingNames := []
  nextInode := 4
  clock := 1

/-- A header with everything there. -/
theorem header_served_of_panel :
    let project := Project.standard pathScopeSettings
    let moment := (Moment.fresh cardTree).next project .buildStart
    let path : FilePath := ⟨"panel.html"⟩
    let source : Text := "<script></script><script>run()</script><style>p {}</style>"
    let parsed : ParsedTemplate :=
      { stylesheets := [⟨none, some "p {}", "css"⟩]
        scripts := [⟨none, some [], "js"⟩, ⟨none, some "run()", "js"⟩]
        body := [] }
    let loaded := moment.next project (.load path.text)
    project.toolchain.parser = parseMarkup ∧
      project.toolchain.pipeline.preprocessor.LoadsFiles ∧
      project.settings.style.bundle = true ∧
      project.settings.style.scope = none ∧
      moment.Reached project ∧
      project.Asks path.text path .template ∧
      moment.files.readText path = .ok source ∧
      source.length < UInt64.size ∧
      (parseMarkup source).result = .ok parsed ∧
      (∀ entry, moment.session.templates.get? path.text = some entry →
        moment.session.identities.Gives moment.files path entry.base.key →
        entry.base.source = source) ∧
      ((∃ answer rest, moment.Answers project path.text (some answer) ∧
          answer.contents = Statement.code (Compile.header project.settings path parsed) ++ rest) ∧
        (loaded.ServesHeader project path parsed ↔ project.HoldsStylesheets path parsed) ∧
        ∀ index node, parsed.stylesheets[index]? = some node → node.href = none →
          node.content = some [] →
          let id := Compile.styleId path (Compile.scopeToken project.settings path) index
          .effect id ∈ Compile.header project.settings path parsed ∧
            loaded.Answers project id none ∧
            (loaded.next project (.load id)).session.sink =
              loaded.session.sink.emit {
                severity := .warning
                code := ⟨.warning, 2⟩
                message := "`" ++ id ++ "` does not address an inline resource"
                file := some path
                location := none
                notes := [] }) := by
  intro project moment path source parsed loaded
  have hloads := (Project.reportsReads_standard pathScopeSettings).loadsFiles
  have reached : moment.Reached project := (Moment.Reached.fresh project cardTree).run [.buildStart]
  have hasks : project.Asks path.text path .template := ⟨⟨path, none⟩, by rfl, rfl, by decide⟩
  have hsource : moment.files.readText path = .ok source := by rfl
  have hsize : source.length < UInt64.size := by decide
  have hparsed : (parseMarkup source).result = .ok parsed :=
    parseMarkup_eq_ok_iff.mpr ⟨by decide +kernel, by decide +kernel⟩
  have hcurrent : ∀ entry, moment.session.templates.get? path.text = some entry →
      moment.session.identities.Gives moment.files path entry.base.key →
      entry.base.source = source := by
    intro entry hentry
    rw [Moment.templates_fresh_buildStart] at hentry
    cases hentry
  exact ⟨rfl, hloads, rfl, rfl, reached, hasks, hsource, hsize, hparsed, hcurrent,
    header_served_iff rfl hloads rfl rfl reached hasks hsource hsize hparsed hcurrent⟩

/-- The module of a template imports its empty stylesheet, and a load of that answers nothing
and leaves a diagnostic. -/
theorem answers_none_of_imported_style :
    let project := Project.standard pathScopeSettings
    let moment := (Moment.fresh cardTree).next project .buildStart
    let loaded := moment.next project (.load "card.html")
    let id : Text := "card.html?type=componentStylesheet&scope=sOpqM6ffZ&i=0"
    let answer : LoadedModule :=
      { contents := "import \"card.html?type=componentStylesheet&scope=sOpqM6ffZ&i=0\";\n" ++
          "const template = \"<p></p>\";\nexport const name = \"card\";\n" ++
          "export const scope = \"sOpqM6ffZ\";\nexport default \x7b name, scope, template \x7d;\n"
        loader := .script }
    project.settings.style.bundle = true ∧ project.settings.style.scope = none ∧
      moment.Answers project "card.html" (some answer) ∧
      id ∈ Header.specifiers answer.contents ∧
      ModuleId.pathOf id = ⟨"card.html"⟩ ∧
      loaded.Answers project id none ∧
      (loaded.next project (.load id)).session.sink.held = [{
        severity := .warning
        code := ⟨.warning, 2⟩
        message := "`" ++ id ++ "` does not address an inline resource"
        file := some ⟨"card.html"⟩
        location := none
        notes := [] }] := by
  intro project moment loaded id answer
  have hanswer : moment.Answers project "card.html" (some answer) := by decide +kernel
  have himported : id ∈ Header.specifiers answer.contents := by decide +kernel
  have hnone : loaded.Answers project id none := by decide +kernel
  exact ⟨rfl, rfl, hanswer, himported, by decide, hnone, by decide +kernel⟩

end ComponentLoader
