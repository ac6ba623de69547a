import ComponentLoader.Proofs.Session.Resource
set_option autoImplicit false

/-!
# Files that are not ours (SPEC §4.5)

A bundler asks a session for every module, also for those that are none of its business: then
nothing is answered, and nothing is looked at or remembered.  Whether a file is ours is decided in
two places, for an id that can be parsed by what it asks for, and for any other by the text before
its first question mark.  Both come to the same (`Request.isSome_classify`).

Of our own files nothing is answered in one case only: a part of a template is asked for, and the
source of the template has no text there.
-/

namespace ComponentLoader

/-! ## Ownership -/

/-- The file at a path is neither a template nor a stylesheet, in whatever case its extension is. -/
def Settings.IsForeign (settings : Settings) (path : FilePath) : Prop :=
  ∀ extension, path.extension? = some extension →
    Text.asciiLower extension ∉ settings.templateExtensions ∧
      Text.asciiLower extension ≠ "css".toList ∧ Text.asciiLower extension ≠ "scss".toList

theorem Settings.handles_eq_false_iff {settings : Settings} {path : FilePath} :
    settings.handles path = false ↔ settings.IsForeign path := by
  unfold handles IsForeign FilePath.kind?
  cases path.extension? with
  | none => simp
  | some extension => simp [isTemplateExtension, isStylesheetExtension]

/-- An id that can be parsed asks for something exactly if its path is handled. -/
theorem Request.isSome_classify (settings : Settings) (id : ModuleId) :
    (classify settings id).isSome = settings.handles id.path := by
  unfold classify Settings.handles
  cases id.path.kind? with
  | none => rfl
  | some extension =>
      dsimp only
      cases htemplate : settings.isTemplateExtension extension with
      | true =>
          cases id.part with
          | none => rfl
          | some part => rfl
      | false => cases hstylesheet : isStylesheetExtension extension <;> simp

section

variable {project : Project} {id : Text}

theorem Project.Asks.not_isForeign {path : FilePath} {request : Request}
    (h : project.Asks id path request) : ¬project.settings.IsForeign path := by
  obtain ⟨parsed, -, rfl, hclassify⟩ := h
  rw [← Settings.handles_eq_false_iff, ← Request.isSome_classify, hclassify]
  simp

/-- An id with the path of one of our files asks for something of it, or cannot be parsed. -/
theorem Project.exists_asks_of_parse {parsed : ModuleId} (hparse : ModuleId.parse id = .ok parsed)
    (hours : ¬project.settings.IsForeign (ModuleId.pathOf id)) :
    ∃ request, project.Asks id (ModuleId.pathOf id) request := by
  have hpath : parsed.path = ModuleId.pathOf id := ModuleId.path_eq_pathOf hparse
  rw [← Settings.handles_eq_false_iff, Bool.not_eq_false, ← hpath, ← Request.isSome_classify,
    Option.isSome_iff_exists] at hours
  obtain ⟨request, hclassify⟩ := hours
  exact ⟨request, parsed, hparse, hpath, hclassify⟩

end

namespace Session

variable {project : Project} {files : FileTree} {id : Text} {path : FilePath} {session : Session}

/-- A load of a file that is not ours is over before it begins. -/
theorem load_of_isForeign (h : project.settings.IsForeign (ModuleId.pathOf id)) :
    load project files id session = .ok none session := by
  have houtcome := load_outcome project files id session
  generalize load project files id session = outcome at houtcome ⊢
  cases houtcome with
  | invalidId hparse hhandles =>
      rw [Settings.handles_eq_false_iff.mpr h] at hhandles
      cases hhandles
  | foreign hnone => rfl
  | served hasks hserve => exact absurd (hasks.path_eq ▸ h) hasks.not_isForeign

/-! ## Ids that cannot be parsed -/

theorem EntryOutcome.not_invalidId {e : ModuleIdError} {next : Session} :
    ¬EntryOutcome project files path session (.error (.invalidId e) next) :=
  fun h => nomatch h

theorem OwnerOutcome.not_invalidId {e : ModuleIdError} {next : Session} :
    ¬OwnerOutcome project files path session (.error (.invalidId e) next) := by
  intro h
  cases h with
  | failed hold hentry => exact hentry.not_invalidId

theorem ProcessOutcome.not_invalidId {key : CacheKey} {text : Text} {style : StyleRequest}
    {e : ModuleIdError} {next : Session} :
    ¬ProcessOutcome project files key text style session (.error (.invalidId e) next) :=
  fun h => nomatch h

/-- Whatever goes wrong with a request, it is not its id. -/
theorem ServeOutcome.not_invalidId {request : Request} {e : ModuleIdError} {next : Session} :
    ¬ServeOutcome project files id path session request (.error (.invalidId e) next) := by
  intro h
  cases h with
  | templateFailed hentry => exact hentry.not_invalidId
  | ownerFailed hinline howner => exact howner.not_invalidId
  | styleFailed howner hinline hstale hprocess => exact hprocess.not_invalidId
  | stylesheetFailed hidentity hstale hsource hprocess => exact hprocess.not_invalidId

theorem fails_invalidId_iff (hours : ¬project.settings.IsForeign (ModuleId.pathOf id))
    {e : ModuleIdError} :
    Fails (load project files id) session (.invalidId e) ↔ ModuleId.parse id = .error e := by
  unfold Fails
  constructor
  · rintro ⟨next, hload⟩
    have houtcome := load_outcome project files id session
    rw [hload] at houtcome
    cases houtcome with
    | invalidId hparse hhandles => exact hparse
    | served hasks hserve => exact absurd hserve ServeOutcome.not_invalidId
  · intro hparse
    rw [← Settings.handles_eq_false_iff, Bool.not_eq_false] at hours
    unfold load
    rw [hparse]
    simp only [if_pos hours, run_throw]
    exact ⟨session, rfl⟩

/-! ## Nothing answered -/

/-- Nothing is answered only to a request for an inline resource that its template lacks. -/
theorem ServeOutcome.of_none {request : Request} {next : Session}
    (h : ServeOutcome project files id path session request (.ok none next)) :
    request.isInline = true ∧ ∃ template middle,
      OwnerOutcome project files path session (.ok template middle) ∧ template.Lacks request ∧
        next.templates = middle.templates := by
  cases h with
  | noScript howner hnone => exact ⟨rfl, _, _, howner, hnone, rfl⟩
  | noStyle howner hnone => exact ⟨rfl, _, _, howner, hnone, rfl⟩

end Session

/-! ## Kept templates -/

section

variable {project : Project} {files : FileTree} {path : FilePath} {session next : Session}

/-- The template that is found is one that was kept, or it is of the present file. -/
theorem Session.EntryOutcome.kept_or_read {entry : TemplateEntry} {kept : Bool}
    (h : EntryOutcome project files path session (.ok (entry, kept) next)) :
    session.templates.get? path.text = some entry ∧
        session.identities.Gives files path entry.base.key ∨
      files.readText path = .ok entry.base.source := by
  cases h with
  | kept hidentity hentry hvalid =>
      exact Or.inl ⟨hentry, CacheEntry.key_eq_of_isValid hvalid ▸ ⟨_, hidentity⟩⟩
  | compiled hidentity hstale hcompile =>
      obtain ⟨source, parsed, hsource, -, rfl⟩ := Project.compileIn_eq_ok_iff.mp hcompile
      exact Or.inr hsource

/-- A template that is kept at a moment that is reached has the parts of its source. -/
theorem Moment.Reached.exists_parsed {moment : Moment} (reached : moment.Reached project)
    {entry : TemplateEntry} (hkept : moment.session.templates.get? path.text = some entry) :
    ∃ parsed, (project.toolchain.parser entry.base.source).result = .ok parsed ∧
      entry.HasParts project.settings path parsed := by
  obtain ⟨scene, compiled, hcompiled⟩ := reached.compiled path entry hkept
  obtain ⟨source, parsed, -, hparsed, rfl⟩ := Project.compileIn_eq_ok_iff.mp hcompiled.compile
  have hsame : entry.base.source = source := congrArg CacheEntry.source hcompiled.base
  rw [← hsame] at hparsed
  exact ⟨parsed, hparsed, (hcompiled.hasParts rfl hparsed).1⟩

end

/-! ## Loads -/

/-- A file that is not ours is never touched: its loads answer nothing and leave the whole
session as it is, also where the id cannot be parsed.  An id of one of our files is refused
exactly if it cannot be parsed.  Nothing is answered to it only if it asks for an inline resource
of a template and the entry of the template, kept as it was or made of the present file, has no
text there, as its source has none. -/
theorem load_by_ownership {project : Project} {moment : Moment} (reached : moment.Reached project)
    (id : Text) :
    let path := ModuleId.pathOf id
    let templates := (moment.next project (.load id)).session.templates
    (project.settings.IsForeign path →
      Session.load project moment.files id moment.session = .ok none moment.session) ∧
    (¬project.settings.IsForeign path →
      (∀ e, moment.Fails project id (.invalidId e) ↔ ModuleId.parse id = .error e) ∧
      (moment.Answers project id none →
        ∃ request template parsed, project.Asks id path request ∧ request.isInline = true ∧
          templates.get? path.text = some template ∧ template.Lacks request ∧
          (project.toolchain.parser template.base.source).result = .ok parsed ∧
          parsed.resource? request = none ∧
          (moment.session.templates.get? path.text = some template ∧
              moment.session.identities.Gives moment.files path template.base.key ∨
            moment.files.readText path = .ok template.base.source) ∧
          ∀ present, moment.session.KeepsSource moment.files path present →
            template.base.source = present)) := by
  intro path templates
  refine ⟨Session.load_of_isForeign, fun hours => ⟨fun e => Session.fails_invalidId_iff hours, ?_⟩⟩
  rintro ⟨next, hload⟩
  have houtcome := Session.load_outcome project moment.files id moment.session
  rw [hload] at houtcome
  cases houtcome with
  | foreign hnone =>
      cases hparse : ModuleId.parse id with
      | error e =>
          have hfails : Session.Fails (Session.load project moment.files id) moment.session
              (.invalidId e) :=
            (Session.fails_invalidId_iff hours).mpr hparse
          obtain ⟨next', hfails⟩ := hfails
          rw [hload] at hfails
          cases hfails
      | ok parsed =>
          obtain ⟨request, hasks⟩ := Project.exists_asks_of_parse hparse hours
          exact absurd hasks (hnone path request)
  | @served path' request _ hasks hserve =>
      obtain rfl : path' = path := hasks.path_eq
      obtain ⟨hinline, template, middle, howner, hlacks, htemplates⟩ := hserve.of_none
      have hafter := (Moment.answers_of_load hload).2
      have hkept : templates.get? path.text = some template := by
        show (moment.next project (.load id)).session.templates.get? path.text = some template
        rw [hafter, htemplates]
        exact howner.pinned.1
      obtain ⟨parsed, hparsed, hparts⟩ := (reached.run [.load id]).exists_parsed hkept
      cases howner with
      | found hold hentry =>
          exact ⟨request, template, parsed, hasks, hinline, hkept, hlacks, hparsed,
            hparts.resource?_eq_none hlacks, hentry.kept_or_read, fun present hpresent =>
              (hentry.compiledBy reached.compiled hpresent.read hpresent.current).2⟩

/-- A picture is not ours, whatever its id asks for.  Of a template an unknown part is refused, and
the empty first script is not answered. -/
theorem load_by_ownership_of_panel :
    let project := Project.standard plainSettings
    let picture : Text := "logo.svg?type=bogus"
    let refused : Text := "panel.html?type=bogus"
    let missing : Text := "panel.html?type=componentScript&i=0"
    let path : FilePath := ⟨"panel.html"⟩
    panelLoaded.Reached project ∧
      project.settings.IsForeign (ModuleId.pathOf picture) ∧
      (∃ e, ModuleId.parse picture = .error e) ∧
      Session.load project panelLoaded.files picture panelLoaded.session =
        .ok none panelLoaded.session ∧
      ¬project.settings.IsForeign path ∧
      panelLoaded.Fails project refused (.invalidId (.unknownType "bogus")) ∧
      panelLoaded.Answers project missing none ∧
      ∃ request template parsed, project.Asks missing path request ∧ request.isInline = true ∧
        (panelLoaded.next project (.load missing)).session.templates.get? path.text =
          some template ∧
        template.Lacks request ∧
        (project.toolchain.parser template.base.source).result = .ok parsed ∧
        parsed.resource? request = none ∧
        template.base.source = panelSource := by
  intro project picture refused missing path
  have reached : panelLoaded.Reached project :=
    (Moment.Reached.fresh project cardTree).run [.buildStart, .load "panel.html"]
  have hforeign : project.settings.IsForeign (ModuleId.pathOf picture) :=
    Settings.handles_eq_false_iff.mp (by decide)
  have hours : ¬project.settings.IsForeign path := fun h =>
    absurd (Settings.handles_eq_false_iff.mpr h) (by decide)
  have hanswer : panelLoaded.Answers project missing none := by decide +kernel
  obtain ⟨request, template, parsed, hasks, hinline, hkept, hlacks, hparsed, hnone, -, hsource⟩ :=
    ((load_by_ownership reached missing).2 hours).2 hanswer
  exact ⟨reached, hforeign, ⟨_, rfl⟩, (load_by_ownership reached picture).1 hforeign, hours,
    (((load_by_ownership reached refused).2 hours).1 _).mpr rfl, hanswer, request, template, parsed,
    hasks, hinline, hkept, hlacks, hparsed, hnone, hsource _ keepsSource_panelLoaded⟩

end ComponentLoader
