import ComponentLoader.Proofs.Cache.Pass
import ComponentLoader.Proofs.Session.Template
set_option autoImplicit false

/-!
# What can come of a load (SPEC §4.5)

Each of the larger steps of a session has an inductive predicate on its results, with one
constructor for each way through the step: what had to be the case, what is answered or which error
is reported, and the session afterwards.  `load_outcome` is the inversion of a whole load.  What
loads preserve is proved from these predicates by cases, without the steps being taken again.

Of the identities that a stylesheet records, only for which files they are and what the memo
remembers afterwards is said.
-/

namespace ComponentLoader

/-! ## Parts of results -/

/-- The runs with one more of the parser. -/
def ToolRuns.parse (runs : ToolRuns) : ToolRuns :=
  { runs with parser := runs.parser + 1 }

/-- The runs with those for a stylesheet. -/
def ToolRuns.style (runs : ToolRuns) (work : StyleWork) : ToolRuns :=
  { runs with
    pipeline := runs.pipeline + 1
    preprocessor := runs.preprocessor + work.preprocessings
    scoper := runs.scoper + work.scopings.length }

/-- The module of a kept template. -/
def TemplateEntry.loaded (entry : TemplateEntry) : LoadedModule where
  contents := entry.base.code
  loader := .script
  diagnostics := entry.base.diagnostics

/-- The module of the inline script with a number, if there is one and it is not empty. -/
def TemplateEntry.inlineScript? (entry : TemplateEntry) (index : UInt64) : Option LoadedModule := do
  let script ← entry.scripts[index.toNat]?
  return { contents := ← script.text?, loader := .ofScriptLang script.lang }

/-- An inline stylesheet as it is kept: with the identity of the template that it belongs to. -/
def CacheEntry.ofTemplate (made : CacheEntry) (path : FilePath) (key : CacheKey) : CacheEntry :=
  { made with dependencies := made.dependencies.insert path key }

/-- Its module is also stale when the template changes. -/
theorem CacheEntry.styleModule_ofTemplate {made : CacheEntry} {processed : ProcessedStyle}
    (hcode : made.code = processed.code) (hdiagnostics : made.diagnostics = [])
    (hkeys : made.dependencies.keys = FilePath.inMapOrder processed.dependencies) (path : FilePath)
    (key : CacheKey) :
    Session.styleModule (made.ofTemplate path key) = processed.loaded [path] := by
  have hwatched := OrderedMap.keys_insert_eq_inMapOrder hkeys path key
  unfold Session.styleModule CacheEntry.ofTemplate ProcessedStyle.loaded
  rw [hcode, hdiagnostics, hwatched]

/-- There is no entry, or its check fails; then with the memo after the check. -/
inductive CacheEntry.Stale (files : FileTree) (key : CacheKey) (memo : IdentityMemo) :
    Option CacheEntry → IdentityMemo → Prop where
  | absent : Stale files key memo none memo
  | invalid {old : CacheEntry} {next : IdentityMemo}
      (hinvalid : old.isValid files key memo = (false, next)) : Stale files key memo (some old) next

theorem CacheEntry.Stale.grows {files : FileTree} {key : CacheKey} {memo next : IdentityMemo}
    {found : Option CacheEntry} (h : Stale files key memo found next) : memo.Grows files next := by
  cases h with
  | absent => exact .refl memo files
  | invalid hinvalid => exact grows_of_isValid hinvalid

namespace Session

/-- What a step does: it answers a value or reports an error, and leaves a session. -/
abbrev Outcome (α : Type) : Type :=
  EStateM.Result LoadError Session α

/-- The session that a step leaves. -/
def left {α : Type} : Outcome α → Session
  | .ok _ next => next
  | .error _ next => next

theorem after_eq_left {α : Type} (step : SessionM α) (session : Session) :
    after step session = left (step session) := by
  unfold after left
  cases step session <;> rfl

/-! ## Running steps -/

section

variable {α β : Type} (step : SessionM α) (session : Session)

@[simp]
theorem run_bind (next : α → SessionM β) :
    (step >>= next) session =
      match step session with
      | .ok value middle => next value middle
      | .error e middle => .error e middle := by
  show EStateM.bind step next session = _
  unfold EStateM.bind
  cases step session <;> rfl

@[simp]
theorem run_map (f : α → β) :
    (f <$> step) session =
      match step session with
      | .ok value next => .ok (f value) next
      | .error e next => .error e next := by
  show EStateM.map f step session = _
  unfold EStateM.map
  cases step session <;> rfl

@[simp]
theorem run_pure (value : α) : (pure value : SessionM α) session = .ok value session := rfl

@[simp]
theorem run_throw (e : LoadError) : (throw e : SessionM α) session = .error e session := rfl

@[simp]
theorem run_get : (get : SessionM Session) session = .ok session session := rfl

@[simp]
theorem run_modify (change : Session → Session) :
    (modify change : SessionM Unit) session = .ok () (change session) :=
  rfl

end

section

variable (project : Project) (files : FileTree)

/-! ## Templates -/

/-- What can come of asking for the entry of a template. -/
inductive EntryOutcome (path : FilePath) (session : Session) :
    Outcome (TemplateEntry × Bool) → Prop where
  | unidentified {e : IdentityError}
      (hidentity : session.identities.identity files path = .error e) :
      EntryOutcome path session (.error (.identity e) session)
  | kept {key : CacheKey} {memo next : IdentityMemo} {entry : TemplateEntry}
      (hidentity : session.identities.identity files path = .ok (key, memo))
      (hentry : session.templates.get? path.text = some entry)
      (hvalid : entry.base.isValid files key memo = (true, next)) :
      EntryOutcome path session (.ok (entry, true) { session with identities := next })
  | unreadable {key : CacheKey} {memo next : IdentityMemo} {fault : IoFault}
      (hidentity : session.identities.identity files path = .ok (key, memo))
      (hstale : CacheEntry.Stale files key memo
        ((session.templates.get? path.text).map TemplateEntry.base) next)
      (hsource : files.readText path = .error fault) :
      EntryOutcome path session
        (.error (.template (.unreadable path fault)) { session with identities := next })
  | refused {key : CacheKey} {memo next : IdentityMemo} {source : Text} {e : TemplateError}
      (hidentity : session.identities.identity files path = .ok (key, memo))
      (hstale : CacheEntry.Stale files key memo
        ((session.templates.get? path.text).map TemplateEntry.base) next)
      (hsource : files.readText path = .ok source)
      (hrefused : project.compileIn ⟨files, session.helpers⟩ path = .error e) :
      EntryOutcome path session
        (.error (.template e) { session with identities := next, runs := session.runs.parse })
  | compiled {key : CacheKey} {memo next : IdentityMemo} {compiled : CompiledTemplate}
      (hidentity : session.identities.identity files path = .ok (key, memo))
      (hstale : CacheEntry.Stale files key memo
        ((session.templates.get? path.text).map TemplateEntry.base) next)
      (hcompiled : project.compileIn ⟨files, session.helpers⟩ path = .ok compiled) :
      EntryOutcome path session
        (.ok (.ofCompiled key compiled, false)
          { session with
            identities := next
            templates := session.templates.insert path.text (.ofCompiled key compiled)
            runs := session.runs.parse })

/-- What can come of asking for the template that a part belongs to. -/
inductive OwnerOutcome (path : FilePath) (session : Session) : Outcome TemplateEntry → Prop where
  | missing (hnone : session.templates.get? path.text = none) :
      OwnerOutcome path session (.error (.missingTemplate path) session)
  | failed {e : LoadError} {next : Session} {old : TemplateEntry}
      (hold : session.templates.get? path.text = some old)
      (hentry : EntryOutcome project files path session (.error e next)) :
      OwnerOutcome path session (.error e next)
  | found {entry old : TemplateEntry} {kept : Bool} {next : Session}
      (hold : session.templates.get? path.text = some old)
      (hentry : EntryOutcome project files path session (.ok (entry, kept) next)) :
      OwnerOutcome path session
        (.ok entry { next with counts := if kept then next.counts else next.counts.miss })

/-! ## Stylesheets -/

/-- What can come of recording the identities of some paths. -/
inductive RecordOutcome (paths : List FilePath) (session : Session) :
    Outcome (OrderedMap FilePath CacheKey) → Prop where
  | unidentified {memo : IdentityMemo} {path : FilePath} {e : IdentityError}
      (hgrows : session.identities.Grows files memo) (hmem : path ∈ paths)
      (hidentity : memo.identity files path = .error e) :
      RecordOutcome paths session (.error (.identity e) { session with identities := memo })
  | recorded {memo : IdentityMemo} {known : OrderedMap FilePath CacheKey}
      (hgrows : session.identities.Grows files memo)
      (hpaths : ∀ record ∈ known.entries, record.1 ∈ paths)
      (hremembers : ∀ record ∈ known.entries, memo.Remembers record.1 record.2)
      (hkeys : known.keys = FilePath.inMapOrder paths) :
      RecordOutcome paths session (.ok known { session with identities := memo })

/-- What can come of running a stylesheet through the pipeline. -/
inductive ProcessOutcome (key : CacheKey) (source : Text) (request : StyleRequest)
    (session : Session) : Outcome CacheEntry → Prop where
  | refused {e : StyleError}
      (hprocess : project.toolchain.pipeline.process files source request = .error e) :
      ProcessOutcome key source request session
        (.error (.style e)
          { session with
            runs := session.runs.style (project.toolchain.pipeline.work files source request) })
  | unidentified {processed : ProcessedStyle} {memo : IdentityMemo} {path : FilePath}
      {e : IdentityError}
      (hprocess : project.toolchain.pipeline.process files source request = .ok processed)
      (hgrows : session.identities.Grows files memo) (hmem : path ∈ processed.dependencies)
      (hidentity : memo.identity files path = .error e) :
      ProcessOutcome key source request session
        (.error (.identity e)
          { session with
            identities := memo
            runs := session.runs.style (project.toolchain.pipeline.work files source request) })
  | processed {processed : ProcessedStyle} {known : OrderedMap FilePath CacheKey}
      {memo : IdentityMemo}
      (hprocess : project.toolchain.pipeline.process files source request = .ok processed)
      (hgrows : session.identities.Grows files memo)
      (hpaths : ∀ record ∈ known.entries, record.1 ∈ processed.dependencies)
      (hremembers : ∀ record ∈ known.entries, memo.Remembers record.1 record.2)
      (hkeys : known.keys = FilePath.inMapOrder processed.dependencies) :
      ProcessOutcome key source request session
        (.ok { key := key, source := source, code := processed.code, dependencies := known }
          { session with
            identities := memo
            runs := session.runs.style (project.toolchain.pipeline.work files source request) })

/-! ## Requests -/

/-- What can come of serving a request. -/
inductive ServeOutcome (id : Text) (path : FilePath) (session : Session) :
    Request → Outcome (Option LoadedModule) → Prop where
  | templateFailed {e : LoadError} {next : Session}
      (hentry : EntryOutcome project files path session (.error e next)) :
      ServeOutcome id path session .template (.error e next)
  | template {entry : TemplateEntry} {kept : Bool} {next : Session}
      (hentry : EntryOutcome project files path session (.ok (entry, kept) next)) :
      ServeOutcome id path session .template
        (.ok (some entry.loaded)
          { next with counts := if kept then next.counts.hit else next.counts.miss })
  | ownerFailed {request : Request} {e : LoadError} {next : Session}
      (hinline : request.isInline = true)
      (howner : OwnerOutcome project files path session (.error e next)) :
      ServeOutcome id path session request (.error e next)
  | noScript {index : UInt64} {template : TemplateEntry} {next : Session}
      (howner : OwnerOutcome project files path session (.ok template next))
      (hnone : template.inlineScript? index = none) :
      ServeOutcome id path session (.inlineScript index)
        (.ok none { next with sink := next.sink.emit (missingResource id path) })
  | script {index : UInt64} {template : TemplateEntry} {next : Session} {loaded : LoadedModule}
      (howner : OwnerOutcome project files path session (.ok template next))
      (hscript : template.inlineScript? index = some loaded) :
      ServeOutcome id path session (.inlineScript index) (.ok (some loaded) next)
  | noStyle {scope : Option Text} {index : Option UInt64} {template : TemplateEntry}
      {next : Session}
      (howner : OwnerOutcome project files path session (.ok template next))
      (hnone : inlineStyle? template index = none) :
      ServeOutcome id path session (.inlineStyle scope index)
        (.ok none { next with sink := next.sink.emit (missingResource id path) })
  | styleKept {scope : Option Text} {index : Option UInt64} {template : TemplateEntry}
      {next : Session} {content lang : Text} {style : CacheEntry} {memo : IdentityMemo}
      (howner : OwnerOutcome project files path session (.ok template next))
      (hinline : inlineStyle? template index = some (content, lang))
      (hstyle : template.styleCache.get? id = some style)
      (hvalid : style.isValid files template.base.key next.identities = (true, memo)) :
      ServeOutcome id path session (.inlineStyle scope index)
        (.ok (some (styleModule style))
          { next with identities := memo, counts := next.counts.hit })
  | styleFailed {scope : Option Text} {index : Option UInt64} {template : TemplateEntry}
      {middle next : Session} {content lang : Text} {memo : IdentityMemo} {e : LoadError}
      (howner : OwnerOutcome project files path session (.ok template middle))
      (hinline : inlineStyle? template index = some (content, lang))
      (hstale : CacheEntry.Stale files template.base.key middle.identities
        (template.styleCache.get? id) memo)
      (hprocess : ProcessOutcome project files template.base.key content
        (project.inlineRequest path scope lang)
        { middle with identities := memo, counts := middle.counts.miss } (.error e next)) :
      ServeOutcome id path session (.inlineStyle scope index) (.error e next)
  | styleMade {scope : Option Text} {index : Option UInt64} {template : TemplateEntry}
      {middle next : Session} {content lang : Text} {memo : IdentityMemo} {made : CacheEntry}
      (howner : OwnerOutcome project files path session (.ok template middle))
      (hinline : inlineStyle? template index = some (content, lang))
      (hstale : CacheEntry.Stale files template.base.key middle.identities
        (template.styleCache.get? id) memo)
      (hprocess : ProcessOutcome project files template.base.key content
        (project.inlineRequest path scope lang)
        { middle with identities := memo, counts := middle.counts.miss } (.ok made next)) :
      ServeOutcome id path session (.inlineStyle scope index)
        (.ok (some (styleModule (made.ofTemplate path template.base.key)))
          { next with
            templates := next.templates.insert path.text
              { template with
                styleCache :=
                  template.styleCache.insert id (made.ofTemplate path template.base.key) } })
  | stylesheetUnidentified {scope : Option Text} {e : IdentityError}
      (hidentity : session.identities.identity files path = .error e) :
      ServeOutcome id path session (.stylesheet scope) (.error (.identity e) session)
  | stylesheetKept {scope : Option Text} {key : CacheKey} {memo next : IdentityMemo}
      {entry : CacheEntry}
      (hidentity : session.identities.identity files path = .ok (key, memo))
      (hentry : session.stylesheets.get? id = some entry)
      (hvalid : entry.isValid files key memo = (true, next)) :
      ServeOutcome id path session (.stylesheet scope)
        (.ok (some (styleModule entry))
          { session with identities := next, counts := session.counts.hit })
  | stylesheetUnreadable {scope : Option Text} {key : CacheKey} {memo next : IdentityMemo}
      {fault : IoFault}
      (hidentity : session.identities.identity files path = .ok (key, memo))
      (hstale : CacheEntry.Stale files key memo (session.stylesheets.get? id) next)
      (hsource : files.readText path = .error fault) :
      ServeOutcome id path session (.stylesheet scope)
        (.error (.style (.unreadable path fault))
          { session with identities := next, counts := session.counts.miss })
  | stylesheetFailed {scope : Option Text} {key : CacheKey} {memo memo' : IdentityMemo}
      {source : Text} {e : LoadError} {next : Session}
      (hidentity : session.identities.identity files path = .ok (key, memo))
      (hstale : CacheEntry.Stale files key memo (session.stylesheets.get? id) memo')
      (hsource : files.readText path = .ok source)
      (hprocess : ProcessOutcome project files key source (project.stylesheetRequest path scope)
        { session with identities := memo', counts := session.counts.miss } (.error e next)) :
      ServeOutcome id path session (.stylesheet scope) (.error e next)
  | stylesheetMade {scope : Option Text} {key : CacheKey} {memo memo' : IdentityMemo}
      {source : Text} {made : CacheEntry} {next : Session}
      (hidentity : session.identities.identity files path = .ok (key, memo))
      (hstale : CacheEntry.Stale files key memo (session.stylesheets.get? id) memo')
      (hsource : files.readText path = .ok source)
      (hprocess : ProcessOutcome project files key source (project.stylesheetRequest path scope)
        { session with identities := memo', counts := session.counts.miss } (.ok made next)) :
      ServeOutcome id path session (.stylesheet scope)
        (.ok (some (styleModule made))
          { next with stylesheets := next.stylesheets.insert id made })

/-- What can come of a load. -/
inductive LoadOutcome (id : Text) (session : Session) : Outcome (Option LoadedModule) → Prop where
  | invalidId {e : ModuleIdError} (hparse : ModuleId.parse id = .error e)
      (hhandles : project.settings.handles (ModuleId.pathOf id) = true) :
      LoadOutcome id session (.error (.invalidId e) session)
  | foreign (hnone : ∀ path request, ¬ project.Asks id path request) :
      LoadOutcome id session (.ok none session)
  | served {path : FilePath} {request : Request} {outcome : Outcome (Option LoadedModule)}
      (hasks : project.Asks id path request)
      (hserve : ServeOutcome project files id path session request outcome) :
      LoadOutcome id session outcome

end

/-! ## Inversion -/

section

variable {project : Project} {files : FileTree} {path : FilePath} {session : Session}

theorem identity_ok {key : CacheKey} {memo : IdentityMemo}
    (h : session.identities.identity files path = .ok (key, memo)) :
    identity files path session = .ok key { session with identities := memo } := by
  unfold identity
  rw [h]

theorem identity_error {e : IdentityError}
    (h : session.identities.identity files path = .error e) :
    identity files path session = .error (.identity e) session := by
  unfold identity
  rw [h]

theorem isValid_ok {key : CacheKey} {entry : CacheEntry} {valid : Bool} {memo : IdentityMemo}
    (h : entry.isValid files key session.identities = (valid, memo)) :
    isValid files key entry session = .ok valid { session with identities := memo } := by
  unfold isValid
  rw [h]

/-- Where no entry may be used, the template is compiled. -/
theorem entryOutcome_of_stale {key : CacheKey} {memo next : IdentityMemo}
    (hidentity : session.identities.identity files path = .ok (key, memo))
    (hstale : CacheEntry.Stale files key memo
      ((session.templates.get? path.text).map TemplateEntry.base) next) :
    EntryOutcome project files path session
      ((do return (← compileTemplate project files path key, false))
        { session with identities := next }) := by
  unfold compileTemplate
  cases hsource : files.readText path with
  | error fault =>
      simp only [run_bind, run_throw]
      exact .unreadable hidentity hstale hsource
  | ok source =>
      have hcompile : project.compileIn ⟨files, session.helpers⟩ path = Compile.ofSource
          project.toolchain.parser project.settings session.helpers path source := by
        unfold Project.compileIn compile
        rw [hsource]
      simp only [run_bind, countParse, run_modify, run_get]
      rw [← hcompile]
      cases hresult : project.compileIn ⟨files, session.helpers⟩ path with
      | error e =>
          simp only [run_throw]
          exact .refused hidentity hstale hsource hresult
      | ok compiled =>
          simp only [run_bind, run_modify, run_pure]
          exact .compiled hidentity hstale hresult

theorem entryOutcome_templateEntry (project : Project) (files : FileTree) (path : FilePath)
    (session : Session) :
    EntryOutcome project files path session (templateEntry project files path session) := by
  unfold templateEntry
  rw [run_bind]
  cases hidentity : session.identities.identity files path with
  | error e =>
      rw [identity_error hidentity]
      exact .unidentified hidentity
  | ok answer =>
      obtain ⟨key, memo⟩ := answer
      rw [identity_ok hidentity]
      simp only [run_bind, run_get]
      cases hentry : session.templates.get? path.text with
      | none =>
          refine entryOutcome_of_stale hidentity ?_
          rw [hentry]
          exact .absent
      | some entry =>
          cases hvalid : entry.base.isValid files key memo with
          | mk valid next =>
              simp only [run_bind]
              rw [isValid_ok hvalid]
              cases valid with
              | true => exact .kept hidentity hentry hvalid
              | false =>
                  refine entryOutcome_of_stale hidentity ?_
                  rw [hentry]
                  exact .invalid hvalid

theorem ownerOutcome_owningTemplate (project : Project) (files : FileTree) (path : FilePath)
    (session : Session) :
    OwnerOutcome project files path session (owningTemplate project files path session) := by
  unfold owningTemplate
  simp only [run_bind, run_get]
  cases hold : session.templates.get? path.text with
  | none => exact .missing hold
  | some old =>
      simp only [Option.isNone_some, Bool.false_eq_true, if_false, run_bind]
      have hentry := entryOutcome_templateEntry project files path session
      cases hrun : templateEntry project files path session with
      | error e next =>
          rw [hrun] at hentry
          exact .failed hold hentry
      | ok found next =>
          obtain ⟨entry, kept⟩ := found
          rw [hrun] at hentry
          cases kept with
          | true => exact .found hold hentry
          | false => exact .found hold hentry

/-! ## Inversion for stylesheets -/

theorem RecordOutcome.of_grows {paths : List FilePath} {memo : IdentityMemo}
    {outcome : Outcome (OrderedMap FilePath CacheKey)}
    (h : RecordOutcome files paths { session with identities := memo } outcome)
    (hgrows : session.identities.Grows files memo) : RecordOutcome files paths session outcome := by
  cases h with
  | unidentified hgrows' hmem hidentity =>
      exact .unidentified (hgrows.trans hgrows') hmem hidentity
  | recorded hgrows' hpaths hremembers hkeys =>
      exact .recorded (hgrows.trans hgrows') hpaths hremembers hkeys

/-- What is recorded so far belongs to the paths before, and is remembered. -/
theorem recordOutcome_from (files : FileTree) (done paths : List FilePath)
    (known : OrderedMap FilePath CacheKey) (session : Session)
    (hdone : ∀ record ∈ known.entries, record.1 ∈ done)
    (hknown : ∀ record ∈ known.entries, session.identities.Remembers record.1 record.2)
    (hkeys : known.keys = FilePath.inMapOrder done) :
    RecordOutcome files (done ++ paths) session
      (paths.foldlM (m := SessionM) (fun known path => do
        let key ← identity files path
        return known.insert path key) known session) := by
  induction paths generalizing done known session with
  | nil =>
      rw [List.append_nil]
      exact .recorded (.refl _ files) hdone hknown hkeys
  | cons path rest ih =>
      rw [List.foldlM_cons]
      simp only [run_bind]
      cases hidentity : session.identities.identity files path with
      | error e =>
          rw [identity_error hidentity]
          exact .unidentified (.refl _ files) (List.mem_append_right _ List.mem_cons_self) hidentity
      | ok answer =>
          obtain ⟨key, memo⟩ := answer
          obtain ⟨hgrows, hremembers⟩ := IdentityMemo.grows_of_identity hidentity
          rw [identity_ok hidentity]
          simp only [run_pure]
          have hdone' : ∀ record ∈ (known.insert path key).entries, record.1 ∈ done ++ [path] := by
            intro record hmem
            rcases OrderedMap.mem_entries_insert hmem with hmem | ⟨-, hkey | ⟨-, old, hold⟩⟩
            · exact List.mem_append_left _ (hdone record hmem)
            · exact List.mem_append_right _ (List.mem_singleton.mpr hkey)
            · exact List.mem_append_left _ (hdone (record.1, old) hold)
          have hknown' : ∀ record ∈ (known.insert path key).entries,
              memo.Remembers record.1 record.2 := by
            intro record hmem
            rcases OrderedMap.mem_entries_insert hmem with hmem | ⟨hvalue, hkey | ⟨hcompare, -⟩⟩
            · exact hgrows.remembers _ _ (hknown record hmem)
            · rw [hkey, hvalue]
              exact hremembers
            · rw [hvalue]
              exact hremembers.of_same (FilePath.compare_eq_iff_same.mp hcompare).symm
          have hkeys' := OrderedMap.keys_insert_eq_inMapOrder hkeys path key
          have hrest := ih (done ++ [path]) (known.insert path key)
            { session with identities := memo } hdone' hknown' hkeys'
          rw [List.append_cons]
          exact hrest.of_grows hgrows

theorem recordOutcome_recordIdentities (files : FileTree) (paths : List FilePath)
    (session : Session) :
    RecordOutcome files paths session (recordIdentities files paths session) :=
  recordOutcome_from files [] paths .empty session (fun _ hmem => (nomatch hmem))
    (fun _ hmem => (nomatch hmem)) rfl

theorem processOutcome_processStyle (project : Project) (files : FileTree) (key : CacheKey)
    (source : Text) (request : StyleRequest) (session : Session) :
    ProcessOutcome project files key source request session
      (processStyle project files key source request session) := by
  unfold processStyle
  simp only [run_bind, countStyleWork, run_modify]
  cases hprocess : project.toolchain.pipeline.process files source request with
  | error e =>
      simp only [run_throw]
      exact .refused hprocess
  | ok processed =>
      simp only [run_bind]
      have hrecord := recordOutcome_recordIdentities files processed.dependencies
        { session with
          runs := session.runs.style (project.toolchain.pipeline.work files source request) }
      unfold ToolRuns.style at hrecord
      generalize recordIdentities files processed.dependencies _ = outcome at hrecord ⊢
      cases hrecord with
      | unidentified hgrows hmem hidentity => exact .unidentified hprocess hgrows hmem hidentity
      | recorded hgrows hpaths hremembers hkeys =>
          exact .processed hprocess hgrows hpaths hremembers hkeys

/-! ## Inversion for requests -/

theorem serveOutcome_template (project : Project) (files : FileTree) (id : Text) (path : FilePath)
    (session : Session) :
    ServeOutcome project files id path session .template
      (serve project files id path .template session) := by
  unfold serve loadTemplate
  simp only [run_map, run_bind]
  have hentry := entryOutcome_templateEntry project files path session
  cases hrun : templateEntry project files path session with
  | error e next =>
      rw [hrun] at hentry
      exact .templateFailed hentry
  | ok found next =>
      obtain ⟨entry, kept⟩ := found
      rw [hrun] at hentry
      cases kept with
      | true => exact .template hentry
      | false => exact .template hentry

theorem serveOutcome_inlineScript (project : Project) (files : FileTree) (id : Text)
    (path : FilePath) (index : UInt64) (session : Session) :
    ServeOutcome project files id path session (.inlineScript index)
      (serve project files id path (.inlineScript index) session) := by
  show ServeOutcome project files id path session (.inlineScript index)
    (loadInlineScript project files id path index session)
  unfold loadInlineScript
  simp only [run_bind]
  have howner := ownerOutcome_owningTemplate project files path session
  cases hrun : owningTemplate project files path session with
  | error e next =>
      rw [hrun] at howner
      exact .ownerFailed rfl howner
  | ok template next =>
      rw [hrun] at howner
      simp only
      cases hscript : template.scripts[index.toNat]? with
      | none =>
          have hnone : template.inlineScript? index = none := by
            simp [TemplateEntry.inlineScript?, hscript]
          exact .noScript howner hnone
      | some script =>
          cases htext : script.text? with
          | none =>
              have hnone : template.inlineScript? index = none := by
                simp [TemplateEntry.inlineScript?, hscript, htext]
              simp only [htext]
              exact .noScript howner hnone
          | some contents =>
              have hsome : template.inlineScript? index =
                  some { contents := contents, loader := .ofScriptLang script.lang } := by
                simp [TemplateEntry.inlineScript?, hscript, htext]
              simp only [htext]
              exact .script howner hsome

/-- Where no stylesheet of the template may be used, it is made. -/
theorem serveOutcome_of_staleStyle {project : Project} {files : FileTree} {id : Text}
    {path : FilePath} {scope : Option Text} {index : Option UInt64} {session middle : Session}
    {template : TemplateEntry} {content lang : Text} {memo : IdentityMemo}
    (howner : OwnerOutcome project files path session (.ok template middle))
    (hinline : inlineStyle? template index = some (content, lang))
    (hstale : CacheEntry.Stale files template.base.key middle.identities
      (template.styleCache.get? id) memo) :
    ServeOutcome project files id path session (.inlineStyle scope index)
      ((some <$> makeInlineStyle project files id path scope template content lang)
        { middle with identities := memo }) := by
  unfold makeInlineStyle
  simp only [run_map, run_bind, countMiss, run_modify, run_pure]
  have hprocess := processOutcome_processStyle project files template.base.key content
    (project.inlineRequest path scope lang)
    { middle with identities := memo, counts := middle.counts.miss }
  unfold Project.inlineRequest at hprocess
  cases hrun : processStyle project files template.base.key content
      (styleRequest project.settings path
        (some (scope.getD (Compile.scopeToken project.settings path)))
        ((StyleKind.ofLang? project.settings.style.preprocess lang).getD .css))
      { middle with identities := memo, counts := middle.counts.miss } with
  | error e next =>
      rw [hrun] at hprocess
      exact .styleFailed howner hinline hstale hprocess
  | ok made next =>
      rw [hrun] at hprocess
      exact .styleMade howner hinline hstale hprocess

theorem serveOutcome_inlineStyle (project : Project) (files : FileTree) (id : Text)
    (path : FilePath) (scope : Option Text) (index : Option UInt64) (session : Session) :
    ServeOutcome project files id path session (.inlineStyle scope index)
      (serve project files id path (.inlineStyle scope index) session) := by
  show ServeOutcome project files id path session (.inlineStyle scope index)
    (loadInlineStyle project files id path scope index session)
  unfold loadInlineStyle
  simp only [run_bind]
  have howner := ownerOutcome_owningTemplate project files path session
  cases hrun : owningTemplate project files path session with
  | error e next =>
      rw [hrun] at howner
      exact .ownerFailed rfl howner
  | ok template next =>
      rw [hrun] at howner
      simp only
      cases hinline : inlineStyle? template index with
      | none => exact .noStyle howner hinline
      | some found =>
          obtain ⟨content, lang⟩ := found
          cases hstyle : template.styleCache.get? id with
          | none =>
              refine serveOutcome_of_staleStyle howner hinline ?_
              rw [hstyle]
              exact .absent
          | some style =>
              cases hvalid : style.isValid files template.base.key next.identities with
              | mk valid memo =>
                  simp only [run_bind]
                  rw [isValid_ok hvalid]
                  cases valid with
                  | true =>
                      simp only [if_true, run_bind, countHit, run_modify, run_pure]
                      exact .styleKept howner hinline hstyle hvalid
                  | false =>
                      refine serveOutcome_of_staleStyle howner hinline ?_
                      rw [hstyle]
                      exact .invalid hvalid

/-- Where no entry of a stylesheet may be used, it is made. -/
theorem serveOutcome_of_staleStylesheet {project : Project} {files : FileTree} {id : Text}
    {path : FilePath} {scope : Option Text} {session : Session} {key : CacheKey}
    {memo next : IdentityMemo}
    (hidentity : session.identities.identity files path = .ok (key, memo))
    (hstale : CacheEntry.Stale files key memo (session.stylesheets.get? id) next) :
    ServeOutcome project files id path session (.stylesheet scope)
      ((some <$> makeStylesheet project files id path scope key)
        { session with identities := next }) := by
  unfold makeStylesheet
  simp only [run_map, run_bind, countMiss, run_modify]
  cases hsource : files.readText path with
  | error fault =>
      simp only [run_throw]
      exact .stylesheetUnreadable hidentity hstale hsource
  | ok source =>
      simp only [run_bind, run_modify, run_pure]
      have hprocess := processOutcome_processStyle project files key source
        (project.stylesheetRequest path scope)
        { session with identities := next, counts := session.counts.miss }
      unfold Project.stylesheetRequest at hprocess
      cases hrun : processStyle project files key source
          (styleRequest project.settings path scope
            ((path.kind?.bind (StyleKind.ofLang? project.settings.style.preprocess)).getD .css))
          { session with identities := next, counts := session.counts.miss } with
      | error e next =>
          rw [hrun] at hprocess
          exact .stylesheetFailed hidentity hstale hsource hprocess
      | ok made next =>
          rw [hrun] at hprocess
          exact .stylesheetMade hidentity hstale hsource hprocess

theorem serveOutcome_stylesheet (project : Project) (files : FileTree) (id : Text)
    (path : FilePath) (scope : Option Text) (session : Session) :
    ServeOutcome project files id path session (.stylesheet scope)
      (serve project files id path (.stylesheet scope) session) := by
  show ServeOutcome project files id path session (.stylesheet scope)
    ((some <$> loadStylesheet project files id path scope) session)
  unfold loadStylesheet
  simp only [map_bind, run_bind]
  cases hidentity : session.identities.identity files path with
  | error e =>
      rw [identity_error hidentity]
      exact .stylesheetUnidentified hidentity
  | ok answer =>
      obtain ⟨key, memo⟩ := answer
      rw [identity_ok hidentity]
      simp only [run_get]
      cases hentry : session.stylesheets.get? id with
      | none =>
          refine serveOutcome_of_staleStylesheet hidentity ?_
          rw [hentry]
          exact .absent
      | some entry =>
          cases hvalid : entry.isValid files key memo with
          | mk valid next =>
              simp only [map_bind, run_bind]
              rw [isValid_ok hvalid]
              cases valid with
              | true => exact .stylesheetKept hidentity hentry hvalid
              | false =>
                  refine serveOutcome_of_staleStylesheet hidentity ?_
                  rw [hentry]
                  exact .invalid hvalid

theorem serve_outcome (project : Project) (files : FileTree) (id : Text) (path : FilePath)
    (request : Request) (session : Session) :
    ServeOutcome project files id path session request
      (serve project files id path request session) := by
  cases request with
  | template => exact serveOutcome_template project files id path session
  | inlineScript index => exact serveOutcome_inlineScript project files id path index session
  | inlineStyle scope index =>
      exact serveOutcome_inlineStyle project files id path scope index session
  | stylesheet scope => exact serveOutcome_stylesheet project files id path scope session

theorem load_outcome (project : Project) (files : FileTree) (id : Text) (session : Session) :
    LoadOutcome project files id session (load project files id session) := by
  cases hparse : ModuleId.parse id with
  | error e =>
      unfold load
      rw [hparse]
      by_cases hhandles : project.settings.handles (ModuleId.pathOf id) = true
      · simp only [if_pos hhandles, run_throw]
        exact .invalidId hparse hhandles
      · simp only [if_neg hhandles, run_pure]
        refine .foreign ?_
        rintro path request ⟨parsed, hparsed, -⟩
        rw [hparse] at hparsed
        cases hparsed
  | ok parsed =>
      cases hclassify : Request.classify project.settings parsed with
      | none =>
          unfold load
          rw [hparse]
          simp only [hclassify, run_pure]
          refine .foreign ?_
          rintro path request ⟨parsed', hparsed, rfl, hrequest⟩
          obtain rfl : parsed = parsed' := Except.ok.inj (hparse.symm.trans hparsed)
          rw [hclassify] at hrequest
          cases hrequest
      | some request =>
          have hasks : project.Asks id parsed.path request := ⟨parsed, hparse, rfl, hclassify⟩
          rw [load_of_asks hasks]
          exact .served hasks (serve_outcome project files id parsed.path request session)

end

/-! ## Answered templates -/

section

variable {project : Project} {files : FileTree} {path : FilePath} {session next : Session}
  {entry : TemplateEntry}

/-- The entry that is answered is kept, and its identity is remembered. -/
theorem EntryOutcome.pinned {kept : Bool}
    (h : EntryOutcome project files path session (.ok (entry, kept) next)) :
    next.templates.get? path.text = some entry ∧ entry.base.Pinned next.identities path := by
  cases h with
  | kept hidentity hentry hvalid =>
      have hremembers := (IdentityMemo.grows_of_identity hidentity).2
      exact ⟨hentry, CacheEntry.pinned_of_isValid hremembers hvalid⟩
  | compiled hidentity hstale hcompiled =>
      have hremembers := (IdentityMemo.grows_of_identity hidentity).2
      refine ⟨OrderedMap.get?_insert_self _ _ _, hstale.grows.remembers _ _ hremembers, ?_⟩
      intro record hmem
      cases hmem

theorem OwnerOutcome.pinned
    (h : OwnerOutcome project files path session (.ok entry next)) :
    next.templates.get? path.text = some entry ∧ entry.base.Pinned next.identities path := by
  cases h with
  | found hold hentry => exact hentry.pinned

end

end Session

end ComponentLoader
