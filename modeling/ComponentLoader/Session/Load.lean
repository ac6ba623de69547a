import ComponentLoader.Session.Basic
set_option autoImplicit false

/-!
# Loading modules (SPEC §4.5)

The steps of a session.  `buildStart` begins a pass, `load` answers a request.  A request for a
template, an inline stylesheet or a stylesheet is answered from its entry if that is still valid;
otherwise the result is made anew and its entry put in place of the old one.  An entry is put only
when the result has been made, so that a failure leaves the old one.
-/

namespace ComponentLoader.Session

/-! ## Identities -/

/-- The identity of a path in this pass. -/
def identity (files : FileTree) (path : FilePath) : SessionM CacheKey := fun session =>
  match session.identities.identity files path with
  | .ok (key, memo) => .ok key { session with identities := memo }
  | .error e => .error (.identity e) session

/-- Whether an entry may be used for a file that has the identity `current`. -/
def isValid (files : FileTree) (current : CacheKey) (entry : CacheEntry) : SessionM Bool :=
  fun session =>
    let (valid, memo) := entry.isValid files current session.identities
    .ok valid { session with identities := memo }

/-- The identities of some paths, by path. -/
def recordIdentities (files : FileTree) (paths : List FilePath) :
    SessionM (OrderedMap FilePath CacheKey) :=
  paths.foldlM (fun known path => do
    let key ← identity files path
    return known.insert path key) .empty

/-! ## Counting -/

/-- One more result was used again. -/
def countHit : SessionM Unit :=
  modify fun session => { session with counts := session.counts.hit }

/-- One more result had to be made. -/
def countMiss : SessionM Unit :=
  modify fun session => { session with counts := session.counts.miss }

/-- The parser was run. -/
def countParse : SessionM Unit :=
  modify fun session =>
    { session with runs := { session.runs with parser := session.runs.parser + 1 } }

/-- The pipeline was run, and with it the tools for stylesheets. -/
def countStyleWork (work : StyleWork) : SessionM Unit :=
  modify fun session =>
    { session with
      runs := { session.runs with
        pipeline := session.runs.pipeline + 1
        preprocessor := session.runs.preprocessor + work.preprocessings
        scoper := session.runs.scoper + work.scopings.length } }

/-! ## Templates -/

/-- Compiles the template at a path and keeps it. -/
def compileTemplate (project : Project) (files : FileTree) (path : FilePath) (key : CacheKey) :
    SessionM TemplateEntry := do
  match files.readText path with
  | .error fault => throw (.template (.unreadable path fault))
  | .ok source =>
    countParse
    let helpers := (← get).helpers
    match Compile.ofSource project.toolchain.parser project.settings helpers path source with
    | .error e => throw (.template e)
    | .ok compiled =>
      let entry := TemplateEntry.ofCompiled key compiled
      modify fun session => { session with templates := session.templates.insert path.text entry }
      return entry

/-- The valid entry of the template at a path, and whether it was kept from before. -/
def templateEntry (project : Project) (files : FileTree) (path : FilePath) :
    SessionM (TemplateEntry × Bool) := do
  let key ← identity files path
  match (← get).templates.get? path.text with
  | none => return (← compileTemplate project files path key, false)
  | some entry =>
    if ← isValid files key entry.base then return (entry, true)
    else return (← compileTemplate project files path key, false)

/-- Loads the module of a template. -/
def loadTemplate (project : Project) (files : FileTree) (path : FilePath) :
    SessionM LoadedModule := do
  let (entry, kept) ← templateEntry project files path
  if kept then countHit else countMiss
  return {
    contents := entry.base.code
    loader := .script
    diagnostics := entry.base.diagnostics }

/-- The valid entry of the template that a part belongs to, which must have been loaded. -/
def owningTemplate (project : Project) (files : FileTree) (path : FilePath) :
    SessionM TemplateEntry := do
  if ((← get).templates.get? path.text).isNone then throw (.missingTemplate path)
  let (entry, kept) ← templateEntry project files path
  if !kept then countMiss
  return entry

/-- The diagnostic about an id that addresses no inline resource (SPEC §4.5, code W002). -/
def missingResource (id : Text) (path : FilePath) : Diagnostic where
  severity := .warning
  code := .missingSubResource
  message := "`" ++ id ++ "` does not address an inline resource"
  file := some path

/-- Keeps a diagnostic that belongs to no result. -/
def emit (diagnostic : Diagnostic) : SessionM Unit :=
  modify fun session => { session with sink := session.sink.emit diagnostic }

/-- Loads an inline script of a template. -/
def loadInlineScript (project : Project) (files : FileTree) (id : Text) (path : FilePath)
    (index : UInt64) : SessionM (Option LoadedModule) := do
  let template ← owningTemplate project files path
  match template.scripts[index.toNat]? with
  | some script =>
    match script.text? with
    | some contents => return some { contents := contents, loader := .ofScriptLang script.lang }
    | none =>
      emit (missingResource id path)
      return none
  | none =>
    emit (missingResource id path)
    return none

/-! ## Stylesheets -/

/-- Runs a stylesheet through the pipeline and records the files that it depends on. -/
def processStyle (project : Project) (files : FileTree) (key : CacheKey) (source : Text)
    (request : StyleRequest) : SessionM CacheEntry := do
  countStyleWork (project.toolchain.pipeline.work files source request)
  match project.toolchain.pipeline.process files source request with
  | .error e => throw (.style e)
  | .ok processed =>
    let dependencies ← recordIdentities files processed.dependencies
    return { key := key, source := source, code := processed.code, dependencies := dependencies }

/-- The module of a stylesheet. -/
def styleModule (entry : CacheEntry) : LoadedModule where
  contents := entry.code
  loader := .style
  diagnostics := entry.diagnostics
  watchFiles := entry.dependencies.keys

/-- What is asked of the pipeline for a stylesheet of a project. -/
def styleRequest (settings : Settings) (file : FilePath) (scope : Option Text) (kind : StyleKind) :
    StyleRequest where
  file := file
  scope := scope
  kind := kind
  sourceMap := settings.sourceMap
  strategy := settings.style.strategy

/-- The inline stylesheet with a number, if there is one and it is not empty. -/
def inlineStyle? (template : TemplateEntry) (index : Option UInt64) : Option (Text × Text) := do
  let style ← template.styles[(← index).toNat]?
  return (← style.text?, style.lang)

/-- Makes an inline stylesheet of a template and keeps it with the template. -/
def makeInlineStyle (project : Project) (files : FileTree) (id : Text) (path : FilePath)
    (scope : Option Text) (template : TemplateEntry) (content lang : Text) :
    SessionM LoadedModule := do
  countMiss
  let token := scope.getD (Compile.scopeToken project.settings path)
  let kind := (StyleKind.ofLang? project.settings.style.preprocess lang).getD .css
  let key := template.base.key
  let made ← processStyle project files key content
    (styleRequest project.settings path (some token) kind)
  let entry := { made with dependencies := made.dependencies.insert path key }
  modify fun session =>
    { session with
      templates := session.templates.insert path.text
        { template with styleCache := template.styleCache.insert id entry } }
  return styleModule entry

/-- Loads an inline stylesheet of a template. -/
def loadInlineStyle (project : Project) (files : FileTree) (id : Text) (path : FilePath)
    (scope : Option Text) (index : Option UInt64) : SessionM (Option LoadedModule) := do
  let template ← owningTemplate project files path
  match inlineStyle? template index with
  | none =>
    emit (missingResource id path)
    return none
  | some (content, lang) =>
    match template.styleCache.get? id with
    | none => some <$> makeInlineStyle project files id path scope template content lang
    | some entry =>
      if ← isValid files template.base.key entry then
        countHit
        return some (styleModule entry)
      else some <$> makeInlineStyle project files id path scope template content lang

/-- Makes a stylesheet and keeps it. -/
def makeStylesheet (project : Project) (files : FileTree) (id : Text) (path : FilePath)
    (scope : Option Text) (key : CacheKey) : SessionM LoadedModule := do
  countMiss
  match files.readText path with
  | .error fault => throw (.style (.unreadable path fault))
  | .ok source =>
    let kind := (path.kind?.bind (StyleKind.ofLang? project.settings.style.preprocess)).getD .css
    let entry ← processStyle project files key source
      (styleRequest project.settings path scope kind)
    modify fun session => { session with stylesheets := session.stylesheets.insert id entry }
    return styleModule entry

/-- Loads a stylesheet. -/
def loadStylesheet (project : Project) (files : FileTree) (id : Text) (path : FilePath)
    (scope : Option Text) : SessionM LoadedModule := do
  let key ← identity files path
  match (← get).stylesheets.get? id with
  | none => makeStylesheet project files id path scope key
  | some entry =>
    if ← isValid files key entry then
      countHit
      return styleModule entry
    else makeStylesheet project files id path scope key

/-! ## Requests -/

/-- Loads what a request asks for. -/
def serve (project : Project) (files : FileTree) (id : Text) (path : FilePath) :
    Request → SessionM (Option LoadedModule)
  | .template => some <$> loadTemplate project files path
  | .inlineScript index => loadInlineScript project files id path index
  | .inlineStyle scope index => loadInlineStyle project files id path scope index
  | .stylesheet scope => some <$> loadStylesheet project files id path scope

/-- Loads the module with an id; none if the id is not one of ours, or addresses no inline resource
of its template. -/
def load (project : Project) (files : FileTree) (id : Text) : SessionM (Option LoadedModule) :=
  match ModuleId.parse id with
  | .error e =>
    if project.settings.handles (ModuleId.pathOf id) then throw (.invalidId e) else pure none
  | .ok parsed =>
    match Request.classify project.settings parsed with
    | none => pure none
    | some request => serve project files id parsed.path request

/-- Begins a pass: identities are forgotten and the helper files are read again. -/
def buildStart (project : Project) (files : FileTree) : SessionM Unit := do
  modify fun session => { session with identities := .empty }
  match scanHelpers project.toolchain.exports files project.settings.helpers with
  | .error e => throw (.template e)
  | .ok scan =>
    modify fun session =>
      { session with sink := session.sink.emitAll scan.warnings, helpers := scan.index }

/-- The session without the entries of templates and stylesheets. -/
def clearCaches (session : Session) : Session :=
  { session with templates := .empty, stylesheets := .empty }

/-- The diagnostics that belong to no result, and the session without them. -/
def takeDiagnostics (session : Session) : List Diagnostic × Session :=
  (session.sink.held, { session with sink := .empty })

end ComponentLoader.Session
