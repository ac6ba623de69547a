import ComponentLoader.Proofs.Session.Outcome
set_option autoImplicit false

/-!
# Changes of the entries (SPEC §4.5)

Whatever comes of a request, what it does to the entries of a session is a sequence of a few kinds
of changes: `Change`, where each kind carries what had to be the case for it.  A predicate on
sessions that every change preserves is therefore preserved by every load (`after_load_of_change`),
and to prove an invariant of the entries is to go through the changes, not through the outcomes.
-/

namespace ComponentLoader

namespace Session

/-- The things that a request can do to the entries of a session, one at a time: nothing, but
questions are asked and something is counted; a template is compiled; an inline stylesheet is put
with its template; a stylesheet is put. -/
inductive Change (project : Project) (files : FileTree) (id : Text) (path : FilePath)
    (session : Session) : Request → Session → Prop where
  | asked {request : Request} {memo : IdentityMemo} (hgrows : session.identities.Grows files memo)
      (sink : DiagnosticSink) (counts : CacheCounts) (runs : ToolRuns) :
      Change project files id path session request
        { session with identities := memo, sink := sink, counts := counts, runs := runs }
  | compiled {request : Request} {key : CacheKey} {memo next : IdentityMemo}
      {compiled : CompiledTemplate}
      (hidentity : session.identities.identity files path = .ok (key, memo))
      (hstale : CacheEntry.Stale files key memo
        ((session.templates.get? path.text).map TemplateEntry.base) next)
      (hcompiled : project.compileIn ⟨files, session.helpers⟩ path = .ok compiled) :
      Change project files id path session request
        { session with
          identities := next
          templates := session.templates.insert path.text (.ofCompiled key compiled)
          runs := session.runs.parse }
  | styled {scope : Option Text} {index : Option UInt64} {template : TemplateEntry}
      {content lang : Text} {memo memo' : IdentityMemo} {made : CacheEntry}
      {processed : ProcessedStyle}
      (hkept : session.templates.get? path.text = some template)
      (hkey : session.identities.Remembers path template.base.key)
      (hinline : inlineStyle? template index = some (content, lang))
      (hstale : CacheEntry.Stale files template.base.key session.identities
        (template.styleCache.get? id) memo)
      (hgrows : memo.Grows files memo')
      (hprocess : project.toolchain.pipeline.process files content
        (project.inlineRequest path scope lang) = .ok processed)
      (hcode : made.code = processed.code)
      (hpaths : ∀ record ∈ made.dependencies.entries, record.1 ∈ processed.dependencies)
      (counts : CacheCounts) (runs : ToolRuns)
      (hloaded : styleModule (made.ofTemplate path template.base.key) = processed.loaded [path]) :
      Change project files id path session (.inlineStyle scope index)
        { session with
          identities := memo'
          templates := session.templates.insert path.text
            { template with
              styleCache :=
                template.styleCache.insert id (made.ofTemplate path template.base.key) }
          counts := counts
          runs := runs }
  | stylesheet {scope : Option Text} {key : CacheKey} {memo memo' memo'' : IdentityMemo}
      {source : Text} {made : CacheEntry} {processed : ProcessedStyle}
      (hidentity : session.identities.identity files path = .ok (key, memo))
      (hstale : CacheEntry.Stale files key memo (session.stylesheets.get? id) memo')
      (hgrows : memo'.Grows files memo'')
      (hsource : files.readText path = .ok source)
      (hprocess : project.toolchain.pipeline.process files source
        (project.stylesheetRequest path scope) = .ok processed)
      (hpaths : ∀ record ∈ made.dependencies.entries, record.1 ∈ processed.dependencies)
      (counts : CacheCounts) (runs : ToolRuns) :
      Change project files id path session (.stylesheet scope)
        { session with
          identities := memo''
          stylesheets := session.stylesheets.insert id made
          counts := counts
          runs := runs }

/-! ## What changes preserve -/

section

variable {project : Project} {files : FileTree} {id : Text} {path : FilePath} {request : Request}
  {session : Session} {P : Session → Prop}

theorem EntryOutcome.preserves {outcome : Outcome (TemplateEntry × Bool)}
    (h : EntryOutcome project files path session outcome)
    (hchange : ∀ a b, Change project files id path a request b → P a → P b) (hbefore : P session) :
    P (left outcome) := by
  cases h with
  | unidentified hidentity => exact hbefore
  | kept hidentity hentry hvalid =>
      have hgrows := (IdentityMemo.grows_of_identity hidentity).1
      exact hchange _ _ (.asked (hgrows.trans (CacheEntry.grows_of_isValid hvalid)) session.sink
        session.counts session.runs) hbefore
  | unreadable hidentity hstale hsource =>
      have hgrows := (IdentityMemo.grows_of_identity hidentity).1
      exact hchange _ _ (.asked (hgrows.trans hstale.grows) session.sink session.counts
        session.runs) hbefore
  | refused hidentity hstale hsource hrefused =>
      have hgrows := (IdentityMemo.grows_of_identity hidentity).1
      exact hchange _ _ (.asked (hgrows.trans hstale.grows) session.sink session.counts
        session.runs.parse) hbefore
  | compiled hidentity hstale hcompiled =>
      exact hchange _ _ (.compiled hidentity hstale hcompiled) hbefore

theorem OwnerOutcome.preserves {outcome : Outcome TemplateEntry}
    (h : OwnerOutcome project files path session outcome)
    (hchange : ∀ a b, Change project files id path a request b → P a → P b) (hbefore : P session) :
    P (left outcome) := by
  cases h with
  | missing hnone => exact hbefore
  | failed hold hentry => exact hentry.preserves hchange hbefore
  | @found entry old kept next hold hentry =>
      exact hchange next _ (.asked (.refl next.identities files) next.sink _ next.runs)
        (hentry.preserves hchange hbefore)

theorem ServeOutcome.preserves {outcome : Outcome (Option LoadedModule)}
    (h : ServeOutcome project files id path session request outcome)
    (hchange : ∀ a b, Change project files id path a request b → P a → P b) (hbefore : P session) :
    P (left outcome) := by
  cases h with
  | templateFailed hentry => exact hentry.preserves hchange hbefore
  | @template entry kept next hentry =>
      exact hchange next _ (.asked (.refl next.identities files) next.sink _ next.runs)
        (hentry.preserves hchange hbefore)
  | ownerFailed hinline howner => exact howner.preserves hchange hbefore
  | @noScript index template next howner hnone =>
      exact hchange next _ (.asked (.refl next.identities files) _ next.counts next.runs)
        (howner.preserves hchange hbefore)
  | script howner hscript => exact howner.preserves hchange hbefore
  | @noStyle scope index template next howner hnone =>
      exact hchange next _ (.asked (.refl next.identities files) _ next.counts next.runs)
        (howner.preserves hchange hbefore)
  | @styleKept scope index template next content lang style memo howner hinline hstyle hvalid =>
      exact hchange next _ (.asked (CacheEntry.grows_of_isValid hvalid) next.sink _ next.runs)
        (howner.preserves hchange hbefore)
  | @styleFailed scope index template middle next content lang memo e howner hinline hstale
      hprocess =>
      have howned := howner.preserves hchange hbefore
      cases hprocess with
      | refused hprocess =>
          exact hchange middle _ (.asked hstale.grows middle.sink _ _) howned
      | unidentified hprocess hgrows hmem hidentity' =>
          exact hchange middle _ (.asked (hstale.grows.trans hgrows) middle.sink _ _) howned
  | styleMade howner hinline hstale hprocess =>
      obtain ⟨hkept, hpinned⟩ := howner.pinned
      cases hprocess with
      | processed hprocess hgrows hpaths hremembers hkeys =>
          exact hchange _ _
            (.styled hkept hpinned.1 hinline hstale hgrows hprocess rfl hpaths _ _
              (CacheEntry.styleModule_ofTemplate rfl rfl hkeys path _))
            (howner.preserves hchange hbefore)
  | stylesheetUnidentified hidentity => exact hbefore
  | stylesheetKept hidentity hentry hvalid =>
      have hgrows := (IdentityMemo.grows_of_identity hidentity).1
      exact hchange session _ (.asked (hgrows.trans (CacheEntry.grows_of_isValid hvalid))
        session.sink _ session.runs) hbefore
  | stylesheetUnreadable hidentity hstale hsource =>
      have hgrows := (IdentityMemo.grows_of_identity hidentity).1
      exact hchange session _ (.asked (hgrows.trans hstale.grows) session.sink _ session.runs)
        hbefore
  | stylesheetFailed hidentity hstale hsource hprocess =>
      have hasked := (IdentityMemo.grows_of_identity hidentity).1.trans hstale.grows
      cases hprocess with
      | refused hprocess => exact hchange session _ (.asked hasked session.sink _ _) hbefore
      | unidentified hprocess hgrows hmem hidentity' =>
          exact hchange session _ (.asked (hasked.trans hgrows) session.sink _ _) hbefore
  | stylesheetMade hidentity hstale hsource hprocess =>
      cases hprocess with
      | processed hprocess hgrows hpaths hremembers =>
          exact hchange session _
            (.stylesheet hidentity hstale hgrows hsource hprocess hpaths _ _) hbefore

/-- What every change by the requests of an id preserves is preserved by a load, also by one that
fails. -/
theorem after_load_of_change
    (hchange : ∀ path request, project.Asks id path request →
      ∀ a b, Change project files id path a request b → P a → P b) (hbefore : P session) :
    P (after (load project files id) session) := by
  rw [after_eq_left]
  have houtcome := load_outcome project files id session
  generalize load project files id session = outcome at houtcome ⊢
  cases houtcome with
  | invalidId hparse hhandles => exact hbefore
  | foreign hnone => exact hbefore
  | served hasks hserve => exact hserve.preserves (hchange _ _ hasks) hbefore

end

end Session

end ComponentLoader
