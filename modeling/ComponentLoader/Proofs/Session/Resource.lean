import ComponentLoader.Proofs.Session.Header
set_option autoImplicit false

/-!
# Which inline resource an id is for (SPEC §4.5)

A script or a stylesheet inside a template is asked for by a number.  Four lists have to agree on
what that number stands for: the elements of the source, the parts that were parsed, the resources
of the entry, and the ids.  They do, so a load answers the text of exactly the element with the
number, as it is or as the pipeline makes it, and none with one diagnostic if there is no text.  No
other load leaves a diagnostic.

An id of a stylesheet need not have a number; then it is for no element, and counts
among those without a text.

The moment may be any that some events lead to.  Other files may have changed since the pass began,
so a stylesheet may be answered as it was made from the files that an earlier load of its id saw
(`Moment.LoadSaw`); at a `Moment.Settled` one it is that of the present files.
-/

namespace ComponentLoader

/-! ## Diagnostics that are left -/

namespace Session

variable {project : Project} {files : FileTree} {path : FilePath} {session : Session} {id : Text}
  {request : Request}

/-- Asking for a template leaves no diagnostic. -/
theorem EntryOutcome.sink_eq {outcome : Outcome (TemplateEntry × Bool)}
    (h : EntryOutcome project files path session outcome) : (left outcome).sink = session.sink := by
  cases h <;> rfl

theorem OwnerOutcome.sink_eq {outcome : Outcome TemplateEntry}
    (h : OwnerOutcome project files path session outcome) : (left outcome).sink = session.sink := by
  cases h with
  | missing hnone => rfl
  | failed hold hentry => exact hentry.sink_eq
  | found hold hentry => exact hentry.sink_eq

/-- Neither does the pipeline. -/
theorem ProcessOutcome.sink_eq {key : CacheKey} {text : Text} {style : StyleRequest}
    {outcome : Outcome CacheEntry}
    (h : ProcessOutcome project files key text style session outcome) :
    (left outcome).sink = session.sink := by
  cases h <;> rfl

end Session

/-- The template at a path has been loaded, and as far as its file has not changed since, the entry
is of the present source. -/
structure Session.KeepsSource (session : Session) (files : FileTree) (path : FilePath)
    (source : Text) : Prop where
  kept : (session.templates.get? path.text).isSome = true
  read : files.readText path = .ok source
  current : ∀ entry, session.templates.get? path.text = some entry →
    session.identities.Gives files path entry.base.key → entry.base.source = source

namespace Session

variable {project : Project} {files : FileTree} {path : FilePath} {session : Session} {id : Text}
  {request : Request} {parsed : ParsedTemplate} {source : Text} {trees : Text → FileTree → Prop}

/-- The module is what the pipeline has made of a text in one of some trees, and is also stale when
the template changes. -/
def HasMadeIn (project : Project) (path : FilePath) (trees : FileTree → Prop) (text : Text)
    (style : StyleRequest) (loaded : LoadedModule) : Prop :=
  ∃ tree processed, trees tree ∧
    project.toolchain.pipeline.process tree text style = .ok processed ∧
    loaded = processed.loaded [path]

/-- The template that was loaded is found with the resources of its present source. -/
theorem KeepsSource.findsOwner (hkeeps : session.KeepsSource files path source)
    (hparsed : (project.toolchain.parser source).result = .ok parsed)
    (hcompiled : session.Compiled project) (hmade : session.StylesMadeIn project trees)
    (hfiles : trees id files) (hasks : project.Asks id path request) :
    FindsOwner project files path parsed (HasMadeIn project path (trees id)) id session := by
  intro outcome howner
  have hsink := howner.sink_eq
  have hmade' := howner.preserves
    (fun a b (hchange : Change project files id path a request b) =>
      hchange.keeps_stylesMadeIn hasks hfiles) hmade
  cases howner with
  | missing hnone =>
      have hkept := hkeeps.kept
      rw [hnone] at hkept
      cases hkept
  | failed hold hentry => exact (EntryOutcome.not_error hkeeps.read hparsed hentry).elim
  | @found template old kept next hold hentry =>
      obtain ⟨⟨scene, compiled, hcompiledBy⟩, hsame⟩ :=
        hentry.compiledBy hcompiled hkeeps.read hkeeps.current
      exact ⟨template, _, rfl, (hcompiledBy.hasParts hsame hparsed).1,
        hmade' path template hentry.pinned.1 id, hsink⟩

end Session

/-! ## Moments -/

/-- Files have been changed and removed, but never created; none of them since the pass began, and
none without its stamp. -/
def Moment.Settled (project : Project) (moment : Moment) : Prop :=
  ∃ seen phase, Run project seen phase moment ∧ phase ≠ .edited ∧ StampsTellContents seen

namespace Moment

variable {project : Project} {moment : Moment} {path : FilePath} {parsed : ParsedTemplate}
  {source id : Text} {request : Request}

/-- A settled moment keeps the present source of every template that was loaded. -/
theorem Settled.keepsSource (settled : moment.Settled project)
    (hreports : project.toolchain.pipeline.preprocessor.ReportsReads)
    (hsource : moment.files.readText path = .ok source)
    (hkept : (moment.session.templates.get? path.text).isSome = true) :
    moment.session.KeepsSource moment.files path source := by
  obtain ⟨seen, phase, run, unchanged, htell⟩ := settled
  have hgrounded := run.grounded hreports htell
  refine ⟨hkept, hsource, ?_⟩
  rintro entry hentry ⟨memo, hidentity⟩
  obtain ⟨⟨scene, hscene, compiled, hof⟩, -⟩ := hgrounded.templates path.text entry hentry
  obtain ⟨source', parsed, hread, -, rfl⟩ := Project.compileIn_eq_ok_iff.mp hof.compile
  have hshown := ((hgrounded.identities unchanged).identity hidentity).2
  have hsame : moment.files.readText path = .ok source' :=
    FileTree.readText_eq_of_shows (htell _ hgrounded.mem scene hscene) hshown hof.key hread
  rw [hof.base]
  exact Except.ok.inj (hsame.symm.trans hsource)

section

variable (reached : moment.Reached project)
  (hreports : project.toolchain.pipeline.preprocessor.ReportsReads)
  (hkeeps : moment.session.KeepsSource moment.files path source)
  (hparsed : (project.toolchain.parser source).result = .ok parsed)
include reached hreports hkeeps hparsed

/-- A load of an id for an inline resource comes to a reply. -/
theorem Reached.reply {trees : Text → FileTree → Prop}
    (hmade : moment.session.StylesMadeIn project trees) (hnow : trees id moment.files)
    (hasks : project.Asks id path request) (hinline : request.isInline = true) :
    Session.Reply project moment.files path parsed (Session.HasMadeIn project path (trees id)) id
      moment.session request (Session.load project moment.files id moment.session) := by
  have houtcome := Session.serve_outcome project moment.files id path request moment.session
  rw [← Session.load_of_asks hasks] at houtcome
  refine houtcome.reply hreports.loadsFiles hasks hinline ?_ hkeeps.read ?_
  · exact hkeeps.findsOwner hparsed reached.compiled hmade hnow hasks
  · intro text style processed hprocess
    exact ⟨moment.files, processed, hnow, hprocess, rfl⟩

end

end Moment

/-! ## Elements of templates -/

/-- A template of which the first script is empty, and the second one and the stylesheet are not. -/
def panelSource : Text := "<script></script><script>run()</script><style>p {}</style>"

/-- The moment after it was loaded in a first pass. -/
def panelLoaded : Moment :=
  let project := Project.standard plainSettings
  ((Moment.fresh cardTree).next project .buildStart).next project (.load "panel.html")

theorem settled_panelLoaded : panelLoaded.Settled (.standard plainSettings) := by
  let project := Project.standard plainSettings
  let started := (Moment.fresh cardTree).next project .buildStart
  have hstarted : Run project [started.scene, (Moment.fresh cardTree).scene] .scanned started :=
    .step (.start cardTree) (.buildStart (Session.answers_buildStart_iff.mpr ⟨_, rfl⟩))
  have run : Run project [panelLoaded.scene, started.scene, (Moment.fresh cardTree).scene] .scanned
      panelLoaded := .step hstarted (.load fun hphase => (nomatch hphase))
  have htell : StampsTellContents
      [panelLoaded.scene, started.scene, (Moment.fresh cardTree).scene] :=
    ((stampsTellContents_fresh cardTree).cons_same List.mem_cons_self rfl).cons_same
      List.mem_cons_self rfl
  exact ⟨_, _, run, fun hphase => (nomatch hphase), htell⟩

theorem keepsSource_panelLoaded :
    panelLoaded.session.KeepsSource panelLoaded.files ⟨"panel.html"⟩ panelSource :=
  settled_panelLoaded.keepsSource (Project.reportsReads_standard plainSettings) (by rfl)
    (by decide +kernel)

end ComponentLoader
