import ComponentLoader.Proofs.Session.Answers
import ComponentLoader.Proofs.Session.Reached
import ComponentLoader.Proofs.Template.Header
set_option autoImplicit false

/-!
# Replies to requests for inline resources (SPEC §4.5)

The entry of a template holds the resources of the source that it was compiled from
(`TemplateEntry.HasParts`).  Where such an entry is found (`Session.FindsOwner`), a request for one
of the resources comes to a `Session.Reply`: the text of a script, a module that comes of the text
of a stylesheet, the error that the pipeline has for it, or nothing and a diagnostic.

Which modules may come of a text depends on how much is known of the stylesheets that are kept, so
that is a parameter here.
-/

namespace ComponentLoader

/-! ## Resources of entries -/

/-- The entry holds the scripts and stylesheets of a parsed template. -/
structure TemplateEntry.HasParts (entry : TemplateEntry) (settings : Settings) (path : FilePath)
    (parsed : ParsedTemplate) : Prop where
  scripts : entry.scripts = Compile.scriptResources path parsed.scripts
  styles : entry.styles =
    Compile.styleResources path (Compile.scopeToken settings path) parsed.stylesheets

/-- The entry has no text for a request for an inline resource. -/
def TemplateEntry.Lacks (entry : TemplateEntry) : Request → Prop
  | .inlineScript index => entry.inlineScript? index = none
  | .inlineStyle _ index => Session.inlineStyle? entry index = none
  | .template | .stylesheet _ => False

namespace TemplateEntry.HasParts

variable {entry : TemplateEntry} {settings : Settings} {path : FilePath} {parsed : ParsedTemplate}

theorem inlineScript?_eq (h : entry.HasParts settings path parsed) (index : UInt64) :
    entry.inlineScript? index =
      (parsed.resource? (.inlineScript index)).map fun found =>
        { contents := found.1, loader := .ofScriptLang found.2 } := by
  show _ = (resourceAt? parsed.scripts index).map _
  unfold TemplateEntry.inlineScript? resourceAt?
  rw [h.scripts, Compile.scriptResources, List.getElem?_mapIdx]
  cases parsed.scripts[index.toNat]? with
  | none => rfl
  | some node =>
      obtain ⟨htext, hlang⟩ := Compile.text?_scriptResource path node index.toNat
      simp only [Option.map_some, Option.bind_eq_bind, Option.bind_some, htext, hlang]
      cases node.text? <;> rfl

theorem inlineStyle?_eq (h : entry.HasParts settings path parsed) (scope : Option Text)
    (index : Option UInt64) :
    Session.inlineStyle? entry index = parsed.resource? (.inlineStyle scope index) := by
  cases index with
  | none => rfl
  | some index =>
      show _ = resourceAt? parsed.stylesheets index
      unfold Session.inlineStyle? resourceAt?
      simp only [Option.bind_eq_bind, Option.bind_some]
      rw [h.styles, Compile.styleResources, List.getElem?_mapIdx]
      cases parsed.stylesheets[index.toNat]? with
      | none => rfl
      | some node =>
          obtain ⟨htext, hlang⟩ := Compile.text?_styleResource path
            (Compile.scopeToken settings path) node index.toNat
          simp only [Option.map_some, Option.bind_some, htext, hlang]

/-- What a template lacks its source does not have. -/
theorem resource?_eq_none (h : entry.HasParts settings path parsed) {request : Request}
    (hlacks : entry.Lacks request) : parsed.resource? request = none := by
  cases request with
  | template => cases hlacks
  | inlineScript index =>
      have hnone := h.inlineScript?_eq index
      rw [show entry.inlineScript? index = none from hlacks] at hnone
      exact Option.map_eq_none_iff.mp hnone.symm
  | inlineStyle scope index => exact (h.inlineStyle?_eq scope index).symm.trans hlacks
  | stylesheet scope => cases hlacks

end TemplateEntry.HasParts

/-! ## Entries of a source -/

section

variable {project : Project} {path : FilePath} {parsed : ParsedTemplate} {source : Text}

/-- The resources and the header of an entry are those of its source. -/
theorem TemplateEntry.CompiledBy.hasParts {entry : TemplateEntry} {scene : Scene}
    {compiled : CompiledTemplate} (h : entry.CompiledBy project path scene compiled)
    (hsource : entry.base.source = source)
    (hparsed : (project.toolchain.parser source).result = .ok parsed) :
    entry.HasParts project.settings path parsed ∧
      ∃ rest, entry.loaded.contents =
        Statement.code (Compile.header project.settings path parsed) ++ rest := by
  obtain ⟨source', parsed', -, hparsed', rfl⟩ := Project.compileIn_eq_ok_iff.mp h.compile
  obtain rfl : source' = source := by
    rw [h.base] at hsource
    exact hsource
  obtain rfl : parsed' = parsed := Except.ok.inj (hparsed'.symm.trans hparsed)
  have hcontents := congrArg CacheEntry.code h.base
  exact ⟨⟨h.scripts, h.styles⟩, _, hcontents.trans (Compile.code_statements scene.helpers)⟩

/-- A template that can be read and parsed is never refused. -/
theorem Session.EntryOutcome.not_error {files : FileTree} {session next : Session} {e : LoadError}
    (hsource : files.readText path = .ok source)
    (hparsed : (project.toolchain.parser source).result = .ok parsed) :
    ¬ EntryOutcome project files path session (.error e next) := by
  intro h
  cases h with
  | unidentified hidentity =>
      obtain ⟨key, hobserve⟩ := FileTree.exists_observe_of_readText hsource
      rw [IdentityMemo.observe_of_identity_eq_error hidentity] at hobserve
      cases hobserve
  | unreadable hidentity hstale hread =>
      rw [hsource] at hread
      cases hread
  | refused hidentity hstale hread hrefused =>
      have hcompile : project.compileIn ⟨files, session.helpers⟩ path = .ok _ :=
        Project.compileIn_eq_ok_iff.mpr ⟨source, parsed, hsource, hparsed, rfl⟩
      rw [hrefused] at hcompile
      cases hcompile

/-- What is answered for a template of which no entry with the identity of the file is of another
source. -/
theorem Session.EntryOutcome.compiledBy {files : FileTree} {session next : Session}
    {entry : TemplateEntry} {kept : Bool}
    (h : EntryOutcome project files path session (.ok (entry, kept) next))
    (hcompiled : session.Compiled project) (hsource : files.readText path = .ok source)
    (hcurrent : ∀ entry, session.templates.get? path.text = some entry →
      session.identities.Gives files path entry.base.key → entry.base.source = source) :
    (∃ scene compiled, entry.CompiledBy project path scene compiled) ∧
      entry.base.source = source := by
  cases h with
  | kept hidentity hentry hvalid =>
      have hgives : session.identities.Gives files path entry.base.key :=
        CacheEntry.key_eq_of_isValid hvalid ▸ ⟨_, hidentity⟩
      exact ⟨hcompiled path entry hentry, hcurrent entry hentry hgives⟩
  | compiled hidentity hstale hcompile =>
      refine ⟨⟨_, _, hcompile, rfl, rfl, rfl⟩, ?_⟩
      obtain ⟨source', parsed, hsource', -, rfl⟩ := Project.compileIn_eq_ok_iff.mp hcompile
      exact Except.ok.inj (hsource'.symm.trans hsource)

end

/-! ## Answers and failures -/

namespace Moment

variable {project : Project} {moment : Moment} {id : Text}

/-- What a load answers, and the session that it leaves. -/
theorem answers_of_load {loaded : Option LoadedModule} {next : Session}
    (h : Session.load project moment.files id moment.session = .ok loaded next) :
    moment.Answers project id loaded ∧ (moment.next project (.load id)).session = next := by
  refine ⟨⟨next, h⟩, ?_⟩
  show Session.after _ _ = next
  rw [Session.after_eq_left, h]
  rfl

theorem fails_of_load {e : LoadError} {next : Session}
    (h : Session.load project moment.files id moment.session = .error e next) :
    moment.Fails project id e ∧ (moment.next project (.load id)).session = next := by
  refine ⟨⟨next, h⟩, ?_⟩
  show Session.after _ _ = next
  rw [Session.after_eq_left, h]
  rfl

end Moment

/-! ## Replies -/

namespace Session

section

variable {project : Project} {files : FileTree} {path : FilePath} {session next : Session}

/-- Where the file of a stylesheet can be read, only the pipeline fails. -/
theorem ProcessOutcome.style_of_error (hloads : project.toolchain.pipeline.preprocessor.LoadsFiles)
    {key : CacheKey} {source text : Text} {request : StyleRequest} {e : LoadError}
    (h : ProcessOutcome project files key text request session (.error e next))
    (hsource : files.readText request.file = .ok source) :
    ∃ e', e = .style e' ∧ project.toolchain.pipeline.process files text request = .error e' ∧
      next.sink = session.sink := by
  cases h with
  | refused hprocess => exact ⟨_, rfl, hprocess, rfl⟩
  | unidentified hprocess hgrows hmem hidentity =>
      obtain ⟨key, hobserve⟩ := StylePipeline.exists_observe_of_process hloads hprocess
        (FileTree.exists_observe_of_readText hsource) _ hmem
      rw [IdentityMemo.observe_of_identity_eq_error hidentity] at hobserve
      cases hobserve

end

/-- What comes of a request for an inline resource of a template, where `comes` says which
modules may come of the text of a stylesheet: none if the template has no such resource, the
text of a script, a module that comes of the text of a stylesheet, or the error that the
pipeline reports for that. -/
inductive Reply (project : Project) (files : FileTree) (path : FilePath) (parsed : ParsedTemplate)
    (comes : Text → StyleRequest → LoadedModule → Prop) (id : Text) (session : Session) :
    Request → Outcome (Option LoadedModule) → Prop where
  | missing {request : Request} {next : Session} (hnone : parsed.resource? request = none)
      (hsink : next.sink = session.sink.emit (missingResource id path)) :
      Reply project files path parsed comes id session request (.ok none next)
  | script {index : UInt64} {text lang : Text} {next : Session}
      (hresource : parsed.resource? (.inlineScript index) = some (text, lang))
      (hsink : next.sink = session.sink) :
      Reply project files path parsed comes id session (.inlineScript index)
        (.ok (some { contents := text, loader := .ofScriptLang lang }) next)
  | style {scope : Option Text} {index : Option UInt64} {text lang : Text} {loaded : LoadedModule}
      {next : Session} (hresource : parsed.resource? (.inlineStyle scope index) = some (text, lang))
      (hcomes : comes text (project.inlineRequest path scope lang) loaded)
      (hsink : next.sink = session.sink) :
      Reply project files path parsed comes id session (.inlineStyle scope index)
        (.ok (some loaded) next)
  | refused {scope : Option Text} {index : Option UInt64} {text lang : Text} {e : StyleError}
      {next : Session} (hresource : parsed.resource? (.inlineStyle scope index) = some (text, lang))
      (hprocess : project.toolchain.pipeline.process files text
        (project.inlineRequest path scope lang) = .error e)
      (hsink : next.sink = session.sink) :
      Reply project files path parsed comes id session (.inlineStyle scope index)
        (.error (.style e) next)

/-- The template that a resource belongs to is there, with the resources of a parsed template and
with a stylesheet for the id, if it has one, whose module comes of its text; and finding it
leaves no diagnostic. -/
def FindsOwner (project : Project) (files : FileTree) (path : FilePath) (parsed : ParsedTemplate)
    (comes : Text → StyleRequest → LoadedModule → Prop) (id : Text) (session : Session) : Prop :=
  ∀ outcome, OwnerOutcome project files path session outcome →
    ∃ template next, outcome = .ok template next ∧
      template.HasParts project.settings path parsed ∧
      (∀ style, template.styleCache.get? id = some style →
        ∃ scope index content lang, project.Asks id path (.inlineStyle scope index) ∧
          inlineStyle? template index = some (content, lang) ∧
          comes content (project.inlineRequest path scope lang) (styleModule style)) ∧
      next.sink = session.sink

section

variable {project : Project} {files : FileTree} {path : FilePath} {parsed : ParsedTemplate}
  {comes : Text → StyleRequest → LoadedModule → Prop} {id : Text} {session : Session}

namespace FindsOwner

variable (howns : FindsOwner project files path parsed comes id session)
include howns

theorem not_error {e : LoadError} {next : Session} :
    ¬OwnerOutcome project files path session (.error e next) := by
  intro howner
  obtain ⟨_, _, hok, -⟩ := howns _ howner
  cases hok

variable {template : TemplateEntry} {next : Session}
  (howner : OwnerOutcome project files path session (.ok template next))
include howner

theorem hasParts : template.HasParts project.settings path parsed := by
  obtain ⟨_, _, hok, hparts, -⟩ := howns _ howner
  cases hok
  exact hparts

theorem sink_eq : next.sink = session.sink := by
  obtain ⟨_, _, hok, -, -, hsink⟩ := howns _ howner
  cases hok
  exact hsink

theorem reply_missing {request : Request} (hlacks : template.Lacks request) :
    Reply project files path parsed comes id session request
      (.ok none { next with sink := next.sink.emit (missingResource id path) }) :=
  .missing ((howns.hasParts howner).resource?_eq_none hlacks)
    (congrArg (·.emit (missingResource id path)) (howns.sink_eq howner))

theorem reply_script {index : UInt64} {loaded : LoadedModule}
    (hscript : template.inlineScript? index = some loaded) :
    Reply project files path parsed comes id session (.inlineScript index)
      (.ok (some loaded) next) := by
  rw [(howns.hasParts howner).inlineScript?_eq, Option.map_eq_some_iff] at hscript
  obtain ⟨⟨text, lang⟩, hresource, rfl⟩ := hscript
  exact .script hresource (howns.sink_eq howner)

/-- The same id asked for a stylesheet when it was made. -/
theorem reply_kept {scope : Option Text} {index : Option UInt64}
    (hasks : project.Asks id path (.inlineStyle scope index)) {style : CacheEntry}
    (hkept : template.styleCache.get? id = some style) {after : Session}
    (hafter : after.sink = next.sink) :
    Reply project files path parsed comes id session (.inlineStyle scope index)
      (.ok (some (styleModule style)) after) := by
  have hparts := howns.hasParts howner
  have hsink := howns.sink_eq howner
  obtain ⟨_, _, hok, -, hstyles, -⟩ := howns _ howner
  cases hok
  obtain ⟨scope', index', content, lang, hasked, hstyle, hcomes⟩ := hstyles style hkept
  obtain ⟨-, hrequest⟩ := hasks.unique hasked
  cases hrequest
  rw [hparts.inlineStyle?_eq scope] at hstyle
  exact .style hstyle hcomes (hafter.trans hsink)

end FindsOwner

/-- What can come of a request for an inline resource of a template that is found: where something
new is made, it comes of its text. -/
theorem ServeOutcome.reply (hloads : project.toolchain.pipeline.preprocessor.LoadsFiles)
    {request : Request} {outcome : Outcome (Option LoadedModule)}
    (h : ServeOutcome project files id path session request outcome)
    (hasks : project.Asks id path request) (hinline : request.isInline = true)
    (howns : FindsOwner project files path parsed comes id session) {source : Text}
    (hsource : files.readText path = .ok source)
    (hnew : ∀ text style processed,
      project.toolchain.pipeline.process files text style = .ok processed →
      comes text style (processed.loaded [path])) :
    Reply project files path parsed comes id session request outcome := by
  cases h with
  | templateFailed hfailed => cases hinline
  | template hfound => cases hinline
  | ownerFailed hinline howner => exact absurd howner howns.not_error
  | noScript howner hnone => exact howns.reply_missing howner hnone
  | script howner hscript => exact howns.reply_script howner hscript
  | noStyle howner hnone => exact howns.reply_missing howner hnone
  | styleKept howner hstyle hkept hvalid => exact howns.reply_kept howner hasks hkept rfl
  | @styleFailed scope index template middle next content lang memo e howner hstyle hstale
      hprocess =>
      have hsink : middle.sink = session.sink := howns.sink_eq howner
      rw [(howns.hasParts howner).inlineStyle?_eq scope] at hstyle
      obtain ⟨e', rfl, hrefused, hafter⟩ := hprocess.style_of_error hloads hsource
      exact .refused hstyle hrefused (hafter.trans hsink)
  | @styleMade scope index template middle next content lang memo made howner hstyle hstale
      hprocess =>
      have hsink : middle.sink = session.sink := howns.sink_eq howner
      rw [(howns.hasParts howner).inlineStyle?_eq scope] at hstyle
      cases hprocess with
      | processed hprocess hgrows hpaths hremembers hkeys =>
          rw [CacheEntry.styleModule_ofTemplate rfl rfl hkeys path]
          exact .style hstyle (hnew _ _ _ hprocess) hsink
  | stylesheetUnidentified hidentity => cases hinline
  | stylesheetKept hidentity hkept hvalid => cases hinline
  | stylesheetUnreadable hidentity hstale hread => cases hinline
  | stylesheetFailed hidentity hstale hread hprocess => cases hinline
  | stylesheetMade hidentity hstale hread hprocess => cases hinline

end

end Session

end ComponentLoader
