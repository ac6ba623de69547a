import ComponentLoader.Proofs.Session.Change
set_option autoImplicit false

/-!
# What loads leave usable (SPEC §4.5)

A load puts an entry only where there was none or where the check of the old one had failed, so
every entry that was usable before a load is there after it: `Session.Retains`.  A load that answers
a module leaves an entry for it, and all identities of that entry are remembered: `Session.Keeps`.
Together with `serve_of_keeps`, which answers a request from usable entries without running any
tool, these are what repeated loads rest on.
-/

namespace ComponentLoader

namespace CacheEntry

variable {files : FileTree} {key : CacheKey} {memo next : IdentityMemo} {path : FilePath}
  {old : CacheEntry}

/-- An entry whose check fails was not usable. -/
theorem Stale.not_usable (h : Stale files key memo (some old) next)
    (hkey : memo.Gives files path key) : ¬ old.Usable files memo path := by
  intro husable
  obtain ⟨after, hvalid⟩ := husable.isValid hkey
  cases h with
  | invalid hinvalid =>
      rw [hvalid] at hinvalid
      cases hinvalid

/-- The same, from the question that comes before the check. -/
theorem Stale.not_usable_before {asked : IdentityMemo}
    (h : Stale files key asked (some old) next)
    (hidentity : memo.identity files path = .ok (key, asked)) : ¬ old.Usable files memo path := by
  intro husable
  obtain ⟨hgrows, hremembers⟩ := IdentityMemo.grows_of_identity hidentity
  exact h.not_usable (hremembers.gives files) (husable.grows hgrows)

/-- The template that an inline stylesheet belongs to is one more file that the memo remembers. -/
theorem Pinned.ofTemplate {made : CacheEntry} (h : made.Pinned memo path)
    (hkey : memo.Remembers path key) : (made.ofTemplate path key).Pinned memo path := by
  refine ⟨h.1, ?_⟩
  intro record hmem
  rcases OrderedMap.mem_entries_insert hmem with hmem | ⟨hvalue, hrecord | ⟨hcompare, -⟩⟩
  · exact h.2 record hmem
  · rw [hrecord, hvalue]
    exact hkey
  · rw [hvalue]
    exact hkey.of_same (FilePath.compare_eq_iff_same.mp hcompare).symm

end CacheEntry

/-! ## Retaining entries -/

/-- A later entry of the same compiled template, with all inline stylesheets that were usable. -/
structure TemplateEntry.RetainedIn (entry : TemplateEntry) (files : FileTree) (memo : IdentityMemo)
    (path : FilePath) (later : TemplateEntry) : Prop where
  base : later.base = entry.base
  scripts : later.scripts = entry.scripts
  styles : later.styles = entry.styles
  styleCache : ∀ id style, entry.styleCache.get? id = some style → style.Usable files memo path →
    later.styleCache.get? id = some style

theorem TemplateEntry.RetainedIn.refl (entry : TemplateEntry) (files : FileTree)
    (memo : IdentityMemo) (path : FilePath) : entry.RetainedIn files memo path entry :=
  ⟨rfl, rfl, rfl, fun _ _ hstyle _ => hstyle⟩

namespace Session

/-- Every entry that was usable is kept, and every answer about a file stays the same. -/
structure Retains (session : Session) (files : FileTree) (next : Session) : Prop where
  identities : session.identities.Grows files next.identities
  templates : ∀ path entry, session.templates.get? path.text = some entry →
    entry.base.Usable files session.identities path →
    ∃ later, next.templates.get? path.text = some later ∧
      entry.RetainedIn files session.identities path later
  stylesheets : ∀ id entry, session.stylesheets.get? id = some entry →
    entry.Usable files session.identities (ModuleId.pathOf id) →
    next.stylesheets.get? id = some entry

section

variable {project : Project} {files : FileTree} {id : Text} {path : FilePath}
  {session middle next : Session}

/-- Asking questions leaves all entries. -/
theorem Retains.of_grows {memo : IdentityMemo} (hgrows : session.identities.Grows files memo)
    (sink : DiagnosticSink) (counts : CacheCounts) (runs : ToolRuns) :
    session.Retains files
      { session with identities := memo, sink := sink, counts := counts, runs := runs } where
  identities := hgrows
  templates path entry hentry _ := ⟨entry, hentry, .refl entry files session.identities path⟩
  stylesheets _ _ hentry _ := hentry

theorem Retains.refl (session : Session) (files : FileTree) : session.Retains files session :=
  .of_grows (.refl session.identities files) session.sink session.counts session.runs

theorem Retains.trans (h : session.Retains files middle) (h' : middle.Retains files next) :
    session.Retains files next where
  identities := h.identities.trans h'.identities
  templates := by
    intro path entry hentry husable
    obtain ⟨between, hbetween, hretained⟩ := h.templates path entry hentry husable
    have husable' : between.base.Usable files middle.identities path := by
      rw [hretained.base]
      exact husable.grows h.identities
    obtain ⟨later, hlater, hretained'⟩ := h'.templates path between hbetween husable'
    refine ⟨later, hlater, hretained'.base.trans hretained.base,
      hretained'.scripts.trans hretained.scripts, hretained'.styles.trans hretained.styles, ?_⟩
    intro id style hstyle husableStyle
    exact hretained'.styleCache id style (hretained.styleCache id style hstyle husableStyle)
      (husableStyle.grows h.identities)
  stylesheets id entry hentry husable :=
    h'.stylesheets id entry (h.stylesheets id entry hentry husable) (husable.grows h.identities)

/-- An entry of a template can be put where none was usable, or where it continues the old one. -/
theorem Retains.putTemplate {memo : IdentityMemo} {entry : TemplateEntry}
    (hgrows : session.identities.Grows files memo)
    (hold : ∀ old, session.templates.get? path.text = some old →
      old.base.Usable files session.identities path →
      old.RetainedIn files session.identities path entry)
    (counts : CacheCounts) (runs : ToolRuns) :
    session.Retains files
      { session with
        identities := memo
        templates := session.templates.insert path.text entry
        counts := counts
        runs := runs } where
  identities := hgrows
  templates := by
    intro asked old hfound husable
    show ∃ later, (session.templates.insert path.text entry).get? asked.text = some later ∧ _
    rw [OrderedMap.get?_insert]
    split
    · rename_i hcompare
      obtain rfl : asked = path :=
        congrArg FilePath.mk (Std.LawfulEqOrd.eq_of_compare hcompare)
      exact ⟨entry, rfl, hold old hfound husable⟩
    · exact ⟨old, hfound, .refl old files session.identities asked⟩
  stylesheets _ _ hentry _ := hentry

/-- An entry of a stylesheet can be put where none was usable. -/
theorem Retains.putStylesheet {memo : IdentityMemo} {entry : CacheEntry}
    (hgrows : session.identities.Grows files memo)
    (hold : ∀ old, session.stylesheets.get? id = some old →
      ¬ old.Usable files session.identities (ModuleId.pathOf id))
    (counts : CacheCounts) (runs : ToolRuns) :
    session.Retains files
      { session with
        identities := memo
        stylesheets := session.stylesheets.insert id entry
        counts := counts
        runs := runs } where
  identities := hgrows
  templates path entry hentry _ := ⟨entry, hentry, .refl entry files session.identities path⟩
  stylesheets := by
    intro asked old hfound husable
    show (session.stylesheets.insert id entry).get? asked = some old
    rw [OrderedMap.get?_insert]
    split
    · rename_i hcompare
      obtain rfl : asked = id := Std.LawfulEqOrd.eq_of_compare hcompare
      exact absurd husable (hold old hfound)
    · exact hfound

/-! ## Loads -/

/-- A change replaces no usable entry. -/
theorem Change.retains {request : Request}
    (h : Change project files id path session request next) (hpath : path = ModuleId.pathOf id) :
    session.Retains files next := by
  cases h with
  | asked hgrows sink counts runs => exact .of_grows hgrows sink counts runs
  | compiled hidentity hstale hcompiled =>
      have hgrows := (IdentityMemo.grows_of_identity hidentity).1.trans hstale.grows
      refine Retains.putTemplate hgrows ?_ session.counts session.runs.parse
      intro old hold husable
      rw [hold] at hstale
      exact absurd husable (hstale.not_usable_before hidentity)
  | @styled scope index template content lang memo memo' made processed hkept hkey hinline hstale
      hgrows hprocess hcode hpaths counts runs =>
      refine Retains.putTemplate (hstale.grows.trans hgrows) ?_ counts runs
      intro old hold husable
      obtain rfl : template = old := Option.some.inj (hkept.symm.trans hold)
      refine ⟨rfl, rfl, rfl, ?_⟩
      intro asked style hstyle husableStyle
      show (template.styleCache.insert id _).get? asked = some style
      rw [OrderedMap.get?_insert]
      split
      · rename_i hcompare
        obtain rfl : asked = id := Std.LawfulEqOrd.eq_of_compare hcompare
        rw [hstyle] at hstale
        exact absurd husableStyle (hstale.not_usable (hkey.gives files))
      · exact hstyle
  | stylesheet hidentity hstale hgrows hsource hprocess hpaths counts runs =>
      have hasked := (IdentityMemo.grows_of_identity hidentity).1.trans hstale.grows
      refine Retains.putStylesheet (hasked.trans hgrows) ?_ counts runs
      intro old hold
      rw [hold] at hstale
      rw [← hpath]
      exact hstale.not_usable_before hidentity

/-- A load retains every usable entry, also if it fails. -/
theorem retains_load (project : Project) (files : FileTree) (id : Text) (session : Session) :
    session.Retains files (after (load project files id) session) := by
  refine after_load_of_change ?_ (Retains.refl session files)
  intro path request hasks a b hchange hretains
  exact hretains.trans (hchange.retains hasks.path_eq)

/-! ## Answers from usable entries -/

/-- A usable entry is answered, and nothing else is done. -/
theorem EntryOutcome.of_usable {outcome : Outcome (TemplateEntry × Bool)}
    (h : EntryOutcome project files path session outcome) {entry : TemplateEntry}
    (hentry : session.templates.get? path.text = some entry)
    (husable : entry.base.Usable files session.identities path) :
    ∃ memo, session.identities.Grows files memo ∧
      outcome = .ok (entry, true) { session with identities := memo } := by
  have hstays : ∀ {key : CacheKey} {memo after : IdentityMemo},
      session.identities.identity files path = .ok (key, memo) →
      ¬ CacheEntry.Stale files key memo
        ((session.templates.get? path.text).map TemplateEntry.base) after := by
    intro key memo after hidentity hstale
    rw [hentry] at hstale
    exact hstale.not_usable_before hidentity husable
  cases h with
  | unidentified hidentity =>
      obtain ⟨memo, hmemo⟩ := husable.1
      rw [hidentity] at hmemo
      cases hmemo
  | @kept key memo after found hidentity hfound hvalid =>
      obtain rfl : found = entry := Option.some.inj (hfound.symm.trans hentry)
      have hgrows := (IdentityMemo.grows_of_identity hidentity).1
      exact ⟨after, hgrows.trans (CacheEntry.grows_of_isValid hvalid), rfl⟩
  | unreadable hidentity hstale => exact absurd hstale (hstays hidentity)
  | refused hidentity hstale => exact absurd hstale (hstays hidentity)
  | compiled hidentity hstale => exact absurd hstale (hstays hidentity)

theorem OwnerOutcome.of_usable {outcome : Outcome TemplateEntry}
    (h : OwnerOutcome project files path session outcome) {entry : TemplateEntry}
    (hentry : session.templates.get? path.text = some entry)
    (husable : entry.base.Usable files session.identities path) :
    ∃ memo, session.identities.Grows files memo ∧
      outcome = .ok entry { session with identities := memo } := by
  cases h with
  | missing hnone =>
      rw [hnone] at hentry
      cases hentry
  | failed hold hfailed =>
      obtain ⟨memo, -, hok⟩ := hfailed.of_usable hentry husable
      cases hok
  | found hold hfound =>
      obtain ⟨memo, hgrows, hok⟩ := hfound.of_usable hentry husable
      cases hok
      exact ⟨memo, hgrows, rfl⟩

end

/-! ## Keeping what was answered -/

/-- The session has entries from which a request can be answered with a module, and each of them,
with the file that it belongs to, is as `fit` says. -/
inductive Keeps (session : Session) (fit : CacheEntry → FilePath → Prop) (id : Text)
    (path : FilePath) : Request → LoadedModule → Prop where
  | template {entry : TemplateEntry}
      (hentry : session.templates.get? path.text = some entry) (hfit : fit entry.base path) :
      Keeps session fit id path .template entry.loaded
  | script {index : UInt64} {entry : TemplateEntry} {loaded : LoadedModule}
      (hentry : session.templates.get? path.text = some entry) (hfit : fit entry.base path)
      (hscript : entry.inlineScript? index = some loaded) :
      Keeps session fit id path (.inlineScript index) loaded
  | style {scope : Option Text} {index : Option UInt64} {entry : TemplateEntry}
      {content lang : Text} {style : CacheEntry}
      (hentry : session.templates.get? path.text = some entry) (hfit : fit entry.base path)
      (hinline : inlineStyle? entry index = some (content, lang))
      (hstyle : entry.styleCache.get? id = some style) (hfitStyle : fit style path) :
      Keeps session fit id path (.inlineStyle scope index) (styleModule style)
  | stylesheet {scope : Option Text} {entry : CacheEntry}
      (hentry : session.stylesheets.get? id = some entry) (hfit : fit entry path) :
      Keeps session fit id path (.stylesheet scope) (styleModule entry)

section

variable {project : Project} {files : FileTree} {id : Text} {path : FilePath} {request : Request}
  {session next : Session} {fit fit' : CacheEntry → FilePath → Prop} {loaded : LoadedModule}

theorem Keeps.mono (h : session.Keeps fit id path request loaded)
    (hfit : ∀ entry, fit entry path → fit' entry path) :
    session.Keeps fit' id path request loaded := by
  cases h with
  | template hentry hbase => exact .template hentry (hfit _ hbase)
  | script hentry hbase hscript => exact .script hentry (hfit _ hbase) hscript
  | style hentry hbase hinline hstyle hfitStyle =>
      exact .style hentry (hfit _ hbase) hinline hstyle (hfit _ hfitStyle)
  | stylesheet hentry hbase => exact .stylesheet hentry (hfit _ hbase)

/-- What can be answered depends on the entries alone. -/
theorem Keeps.of_same (h : session.Keeps fit id path request loaded)
    (htemplates : next.templates = session.templates)
    (hstylesheets : next.stylesheets = session.stylesheets) :
    next.Keeps fit id path request loaded := by
  cases h with
  | template hentry hbase => exact .template (htemplates ▸ hentry) hbase
  | script hentry hbase hscript => exact .script (htemplates ▸ hentry) hbase hscript
  | style hentry hbase hinline hstyle hfitStyle =>
      exact .style (htemplates ▸ hentry) hbase hinline hstyle hfitStyle
  | stylesheet hentry hbase => exact .stylesheet (hstylesheets ▸ hentry) hbase

/-- Usable entries are among those that are retained. -/
theorem Retains.keeps (hretains : session.Retains files next)
    (h : session.Keeps fit id path request loaded) (hpath : path = ModuleId.pathOf id)
    (husable : ∀ entry, fit entry path → entry.Usable files session.identities path) :
    next.Keeps fit id path request loaded := by
  cases h with
  | @template entry hentry hbase =>
      obtain ⟨later, hlater, hretained⟩ := hretains.templates path entry hentry (husable _ hbase)
      have hloaded : later.loaded = entry.loaded := by
        unfold TemplateEntry.loaded
        rw [hretained.base]
      rw [← hloaded]
      exact .template hlater (hretained.base.symm ▸ hbase)
  | @script index entry loaded hentry hbase hscript =>
      obtain ⟨later, hlater, hretained⟩ := hretains.templates path entry hentry (husable _ hbase)
      refine .script hlater (hretained.base.symm ▸ hbase) ?_
      unfold TemplateEntry.inlineScript? at hscript ⊢
      rw [hretained.scripts]
      exact hscript
  | @style scope index entry content lang style hentry hbase hinline hstyle hfitStyle =>
      obtain ⟨later, hlater, hretained⟩ := hretains.templates path entry hentry (husable _ hbase)
      have hinline' : inlineStyle? later index = some (content, lang) := by
        unfold inlineStyle? at hinline ⊢
        rw [hretained.styles]
        exact hinline
      exact .style hlater (hretained.base.symm ▸ hbase) hinline'
        (hretained.styleCache id style hstyle (husable _ hfitStyle)) hfitStyle
  | @stylesheet scope entry hentry hbase =>
      subst hpath
      exact .stylesheet (hretains.stylesheets id entry hentry (husable _ hbase)) hbase

/-- All identities that were recorded with a stylesheet are remembered. -/
theorem ProcessOutcome.pinned {key : CacheKey} {source : Text} {request : StyleRequest}
    {made : CacheEntry}
    (h : ProcessOutcome project files key source request session (.ok made next))
    (hkey : session.identities.Remembers path key) : made.Pinned next.identities path := by
  cases h with
  | processed hprocess hgrows hpaths hremembers =>
      exact ⟨hgrows.remembers _ _ hkey, hremembers⟩

/-- A module that was answered is kept, with identities that are remembered. -/
theorem ServeOutcome.keeps
    (h : ServeOutcome project files id path session request (.ok (some loaded) next)) :
    next.Keeps (fun entry path => entry.Pinned next.identities path) id path request loaded := by
  cases h with
  | template hentry =>
      obtain ⟨hkept, hpinned⟩ := hentry.pinned
      exact .template hkept hpinned
  | script howner hscript =>
      obtain ⟨hkept, hpinned⟩ := howner.pinned
      exact .script hkept hpinned hscript
  | styleKept howner hinline hstyle hvalid =>
      obtain ⟨hkept, hpinned⟩ := howner.pinned
      have hgrows := CacheEntry.grows_of_isValid hvalid
      exact .style hkept (hpinned.grows hgrows) hinline hstyle
        (CacheEntry.pinned_of_isValid hpinned.1 hvalid)
  | styleMade howner hinline hstale hprocess =>
      obtain ⟨hkept, hpinned⟩ := howner.pinned
      have hremembers := hstale.grows.remembers _ _ hpinned.1
      have hmade := hprocess.pinned hremembers
      cases hprocess with
      | processed hprocess hgrows hpaths hrecorded =>
          have hbase := (hpinned.grows hstale.grows).grows hgrows
          exact .style (OrderedMap.get?_insert_self _ _ _) hbase hinline
            (OrderedMap.get?_insert_self _ _ _) (hmade.ofTemplate (hgrows.remembers _ _ hremembers))
  | stylesheetKept hidentity hentry hvalid =>
      have hremembers := (IdentityMemo.grows_of_identity hidentity).2
      exact .stylesheet hentry (CacheEntry.pinned_of_isValid hremembers hvalid)
  | stylesheetMade hidentity hstale hsource hprocess =>
      have hremembers := (IdentityMemo.grows_of_identity hidentity).2
      have hmade := hprocess.pinned (hstale.grows.remembers _ _ hremembers)
      exact .stylesheet (OrderedMap.get?_insert_self _ _ _) hmade

/-- The counts after a request was answered from entries: one hit more, except for a script, which
costs nothing. -/
def countsOfUse (request : Request) (counts : CacheCounts) : CacheCounts :=
  match request with
  | .inlineScript _ => counts
  | .template | .inlineStyle _ _ | .stylesheet _ => counts.hit

namespace ServeOutcome

variable {outcome : Outcome (Option LoadedModule)} {entry : TemplateEntry}

/-- A usable template is answered from its entry. -/
theorem template_of_usable
    (h : ServeOutcome project files id path session .template outcome)
    (hentry : session.templates.get? path.text = some entry)
    (husable : entry.base.Usable files session.identities path) :
    ∃ memo, outcome = .ok (some entry.loaded)
      { session with identities := memo, counts := session.counts.hit } := by
  cases h with
  | templateFailed hfailed =>
      obtain ⟨memo, -, hok⟩ := hfailed.of_usable hentry husable
      cases hok
  | template hfound =>
      obtain ⟨memo, -, hok⟩ := hfound.of_usable hentry husable
      cases hok
      exact ⟨memo, rfl⟩
  | ownerFailed hinline howner => cases hinline

/-- A script of a usable template is answered, and nothing is counted. -/
theorem script_of_usable {index : UInt64}
    (h : ServeOutcome project files id path session (.inlineScript index) outcome)
    (hentry : session.templates.get? path.text = some entry)
    (husable : entry.base.Usable files session.identities path) {loaded : LoadedModule}
    (hscript : entry.inlineScript? index = some loaded) :
    ∃ memo, outcome = .ok (some loaded) { session with identities := memo } := by
  cases h with
  | ownerFailed hinline howner =>
      obtain ⟨memo, -, hok⟩ := howner.of_usable hentry husable
      cases hok
  | noScript howner hnone =>
      obtain ⟨memo, -, hok⟩ := howner.of_usable hentry husable
      cases hok
      rw [hscript] at hnone
      cases hnone
  | script howner hfound =>
      obtain ⟨memo, -, hok⟩ := howner.of_usable hentry husable
      cases hok
      rw [hscript] at hfound
      cases hfound
      exact ⟨memo, rfl⟩

/-- A usable stylesheet of a usable template is answered from its entry. -/
theorem style_of_usable {scope : Option Text} {index : Option UInt64}
    (h : ServeOutcome project files id path session (.inlineStyle scope index) outcome)
    (hentry : session.templates.get? path.text = some entry)
    (husable : entry.base.Usable files session.identities path) {content lang : Text}
    (hinline : inlineStyle? entry index = some (content, lang)) {style : CacheEntry}
    (hstyle : entry.styleCache.get? id = some style)
    (husableStyle : style.Usable files session.identities path) :
    ∃ memo, outcome = .ok (some (styleModule style))
      { session with identities := memo, counts := session.counts.hit } := by
  -- the questions about the template leave the stylesheet usable
  have hstays : ∀ {memo memo' : IdentityMemo}, session.identities.Grows files memo →
      ¬CacheEntry.Stale files entry.base.key memo (entry.styleCache.get? id) memo' := by
    intro memo memo' hgrows hstale
    rw [hstyle] at hstale
    exact hstale.not_usable (hgrows.gives _ _ husable.1) (husableStyle.grows hgrows)
  cases h with
  | ownerFailed _ howner =>
      obtain ⟨memo, -, hok⟩ := howner.of_usable hentry husable
      cases hok
  | noStyle howner hnone =>
      obtain ⟨memo, -, hok⟩ := howner.of_usable hentry husable
      cases hok
      rw [hinline] at hnone
      cases hnone
  | styleKept howner hfound hkept hvalid =>
      obtain ⟨memo, hgrows, hok⟩ := howner.of_usable hentry husable
      cases hok
      rw [hstyle] at hkept
      cases hkept
      exact ⟨_, rfl⟩
  | styleFailed howner hfound hstale hprocess =>
      obtain ⟨memo, hgrows, hok⟩ := howner.of_usable hentry husable
      cases hok
      exact absurd hstale (hstays hgrows)
  | styleMade howner hfound hstale hprocess =>
      obtain ⟨memo, hgrows, hok⟩ := howner.of_usable hentry husable
      cases hok
      exact absurd hstale (hstays hgrows)

/-- A usable stylesheet is answered from its entry. -/
theorem stylesheet_of_usable {scope : Option Text}
    (h : ServeOutcome project files id path session (.stylesheet scope) outcome)
    {style : CacheEntry} (hentry : session.stylesheets.get? id = some style)
    (husable : style.Usable files session.identities path) :
    ∃ memo, outcome = .ok (some (styleModule style))
      { session with identities := memo, counts := session.counts.hit } := by
  have hstays : ∀ {key : CacheKey} {memo memo' : IdentityMemo},
      session.identities.identity files path = .ok (key, memo) →
      ¬CacheEntry.Stale files key memo (session.stylesheets.get? id) memo' := by
    intro key memo memo' hidentity hstale
    rw [hentry] at hstale
    exact hstale.not_usable_before hidentity husable
  cases h with
  | ownerFailed hinline howner => cases hinline
  | stylesheetUnidentified hidentity =>
      obtain ⟨memo, hmemo⟩ := husable.1
      rw [hidentity] at hmemo
      cases hmemo
  | stylesheetKept hidentity hkept hvalid =>
      rw [hentry] at hkept
      cases hkept
      exact ⟨_, rfl⟩
  | stylesheetUnreadable hidentity hstale => exact absurd hstale (hstays hidentity)
  | stylesheetFailed hidentity hstale => exact absurd hstale (hstays hidentity)
  | stylesheetMade hidentity hstale => exact absurd hstale (hstays hidentity)

end ServeOutcome

/-- A request is answered from usable entries without any other effect than questions and the
count. -/
theorem serve_of_keeps (project : Project) (h : session.Keeps fit id path request loaded)
    (husable : ∀ entry, fit entry path → entry.Usable files session.identities path) :
    ∃ memo, serve project files id path request session =
      .ok (some loaded)
        { session with identities := memo, counts := countsOfUse request session.counts } := by
  have houtcome := serve_outcome project files id path request session
  cases h with
  | template hentry hbase => exact houtcome.template_of_usable hentry (husable _ hbase)
  | script hentry hbase hscript =>
      exact houtcome.script_of_usable hentry (husable _ hbase) hscript
  | style hentry hbase hinline hstyle hfitStyle =>
      exact houtcome.style_of_usable hentry (husable _ hbase) hinline hstyle (husable _ hfitStyle)
  | stylesheet hentry hbase => exact houtcome.stylesheet_of_usable hentry (husable _ hbase)

/-- What a load answered is kept after it. -/
theorem keeps_of_answers (h : Answers (load project files id) session (some loaded)) :
    ∃ path request, project.Asks id path request ∧
      (after (load project files id) session).Keeps
        (fun entry path => entry.Pinned (after (load project files id) session).identities path)
        id path request loaded := by
  obtain ⟨next, hrun⟩ := h
  have houtcome := load_outcome project files id session
  rw [after_eq_left]
  rw [hrun] at houtcome ⊢
  cases houtcome with
  | served hasks hserve => exact ⟨_, _, hasks, hserve.keeps⟩

end

end Session

end ComponentLoader
