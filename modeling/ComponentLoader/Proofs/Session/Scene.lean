import ComponentLoader.Proofs.Cache.Entry
import ComponentLoader.Proofs.Session.Request
import ComponentLoader.Proofs.Session.Triple
set_option autoImplicit false

/-!
# Scenes (SPEC §4.5)

A scene is what a session works on within a pass: the files, and the helper index that was made when
the pass began.  A session stands in a scene if it has that index and its identities are those of
the files.  Steps that ask for identities, count, or keep a diagnostic do not lead out of a scene
and leave the entries as they are, so their triples name the entries before and after.
-/

namespace ComponentLoader

/-- The files, and the index of helpers. -/
structure Scene where
  files : FileTree
  helpers : HelperIndex

/-- The scene comes after the others, and is itself among them: no entry was created since any of
them, and at no path did a file change without its stamp. -/
structure Scene.Follows (now : Scene) (seen : List Scene) : Prop where
  mem : now ∈ seen
  within : ∀ scene ∈ seen, now.files.Within scene.files
  stampsTell : ∀ scene ∈ seen, now.files.StampsTell scene.files

namespace Session

/-- The session has these entries, and what else it knows is true of the scene. -/
structure Stands (session : Session) (now : Scene) (templates : OrderedMap Text TemplateEntry)
    (stylesheets : OrderedMap Text CacheEntry) : Prop where
  helpers : session.helpers = now.helpers
  identities : session.identities.Holds now.files
  templates : session.templates = templates
  stylesheets : session.stylesheets = stylesheets

section

variable {now : Scene} {templates : OrderedMap Text TemplateEntry}
  {stylesheets : OrderedMap Text CacheEntry}

theorem Stands.remember {session : Session} (h : session.Stands now templates stylesheets)
    {memo : IdentityMemo} (hmemo : memo.Holds now.files) :
    Stands { session with identities := memo } now templates stylesheets :=
  ⟨h.helpers, hmemo, h.templates, h.stylesheets⟩

/-! ## Identities -/

theorem triple_identity (path : FilePath) :
    Triple (Stands · now templates stylesheets) (identity now.files path)
      (fun key session => session.Stands now templates stylesheets ∧ now.files.Shows path key)
      (fun session => session.Stands now templates stylesheets ∧
        ∀ key, IdentityMemo.observe now.files path ≠ .ok key) := by
  intro session hstands
  unfold identity
  cases hidentity : session.identities.identity now.files path with
  | ok answer =>
      obtain ⟨key, memo⟩ := answer
      obtain ⟨hholds, hshows⟩ := hstands.identities.identity hidentity
      exact ⟨hstands.remember hholds, hshows⟩
  | error e =>
      refine ⟨hstands, ?_⟩
      intro key hobserve
      rw [IdentityMemo.observe_of_identity_eq_error hidentity] at hobserve
      cases hobserve

variable {failed : Session → Prop}

/-- An entry that may be used has records that the scene shows; one without records may be used if
its own identity has not changed. -/
theorem triple_isValid (current : CacheKey) (entry : CacheEntry) :
    Triple (Stands · now templates stylesheets) (isValid now.files current entry)
      (fun valid session => session.Stands now templates stylesheets ∧
        (valid = true → entry.key = current ∧
          ∀ record ∈ entry.dependencies.entries, now.files.Shows record.1 record.2) ∧
        (entry.key = current → entry.dependencies = .empty → valid = true))
      failed := by
  intro session hstands
  unfold isValid CacheEntry.isValid
  by_cases hkey : entry.key = current
  · simp only [if_pos hkey]
    cases hconfirm : session.identities.confirm now.files entry.dependencies.entries with
    | mk valid memo =>
        obtain ⟨hholds, hshows⟩ := hstands.identities.confirm hconfirm
        refine ⟨hstands.remember hholds, fun hvalid => ⟨hkey, hshows hvalid⟩, ?_⟩
        intro _ hempty
        rw [hempty] at hconfirm
        cases hconfirm
        rfl
  · simp only [if_neg hkey]
    refine ⟨hstands.remember hstands.identities, fun hvalid => (nomatch hvalid), ?_⟩
    exact fun h => absurd h hkey

/-- Recording an identity that the files have does not fail. -/
theorem triple_recordIdentity {path : FilePath}
    (hpath : ∃ key, IdentityMemo.observe now.files path = .ok key) {done : List FilePath}
    {known : OrderedMap FilePath CacheKey} (hknown : known.Records now.files done) :
    Triple (Stands · now templates stylesheets)
      (do
        let key ← identity now.files path
        return known.insert path key)
      (fun next session => session.Stands now templates stylesheets ∧
        next.Records now.files (done ++ [path]))
      failed := by
  obtain ⟨observed, hobserved⟩ := hpath
  apply Triple.bind
  · apply (triple_identity path).weaken_failed
    intro session hfailed
    exact absurd hobserved (hfailed.2 observed)
  · intro key
    exact Triple.pure fun session hsession => ⟨hsession.1, hknown.insert hsession.2⟩

theorem triple_recordIdentities {paths : List FilePath}
    (hpaths : ∀ path ∈ paths, ∃ key, IdentityMemo.observe now.files path = .ok key) :
    Triple (Stands · now templates stylesheets) (recordIdentities now.files paths)
      (fun known session => session.Stands now templates stylesheets ∧
        known.Records now.files paths)
      failed := by
  unfold recordIdentities
  -- the records so far are those of the paths before the remaining ones
  suffices hfrom : ∀ done known, OrderedMap.Records known now.files done →
      Triple (Stands · now templates stylesheets)
        (paths.foldlM (fun known path => do
          let key ← identity now.files path
          return known.insert path key) known)
        (fun known session => session.Stands now templates stylesheets ∧
          known.Records now.files (done ++ paths))
        failed from hfrom [] .empty (OrderedMap.records_empty now.files)
  induction paths with
  | nil =>
      intro done known hknown
      rw [List.append_nil]
      exact Triple.pure fun session hstands => ⟨hstands, hknown⟩
  | cons path rest ih =>
      intro done known hknown
      have hrest : ∀ path ∈ rest, ∃ key, IdentityMemo.observe now.files path = .ok key :=
        fun path hmem => hpaths path (List.mem_cons_of_mem _ hmem)
      rw [List.foldlM_cons]
      apply Triple.bind (triple_recordIdentity (hpaths path List.mem_cons_self) hknown)
      intro next
      apply Triple.assuming
      intro hnext
      rw [List.append_cons]
      exact ih hrest (done ++ [path]) next hnext

/-! ## Counts and diagnostics -/

theorem triple_countHit :
    Triple (Stands · now templates stylesheets) countHit
      (fun _ session => session.Stands now templates stylesheets) failed :=
  Triple.modify fun _ h => ⟨h.helpers, h.identities, h.templates, h.stylesheets⟩

theorem triple_countMiss :
    Triple (Stands · now templates stylesheets) countMiss
      (fun _ session => session.Stands now templates stylesheets) failed :=
  Triple.modify fun _ h => ⟨h.helpers, h.identities, h.templates, h.stylesheets⟩

theorem triple_countParse :
    Triple (Stands · now templates stylesheets) countParse
      (fun _ session => session.Stands now templates stylesheets) failed :=
  Triple.modify fun _ h => ⟨h.helpers, h.identities, h.templates, h.stylesheets⟩

theorem triple_countStyleWork (work : StyleWork) :
    Triple (Stands · now templates stylesheets) (countStyleWork work)
      (fun _ session => session.Stands now templates stylesheets) failed :=
  Triple.modify fun _ h => ⟨h.helpers, h.identities, h.templates, h.stylesheets⟩

theorem triple_emit (diagnostic : Diagnostic) :
    Triple (Stands · now templates stylesheets) (emit diagnostic)
      (fun _ session => session.Stands now templates stylesheets) failed :=
  Triple.modify fun _ h => ⟨h.helpers, h.identities, h.templates, h.stylesheets⟩

/-! ## Entries -/

theorem triple_putTemplate (text : Text) (entry : TemplateEntry) :
    Triple (Stands · now templates stylesheets)
      (modify fun session => { session with templates := session.templates.insert text entry })
      (fun _ session => session.Stands now (templates.insert text entry) stylesheets) failed := by
  apply Triple.modify
  intro session h
  refine ⟨h.helpers, h.identities, ?_, h.stylesheets⟩
  rw [← h.templates]

theorem triple_putStylesheet (id : Text) (entry : CacheEntry) :
    Triple (Stands · now templates stylesheets)
      (modify fun session => { session with stylesheets := session.stylesheets.insert id entry })
      (fun _ session => session.Stands now templates (stylesheets.insert id entry)) failed := by
  apply Triple.modify
  intro session h
  refine ⟨h.helpers, h.identities, h.templates, ?_⟩
  rw [← h.stylesheets]

end

end Session

end ComponentLoader
