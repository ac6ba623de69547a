import ComponentLoader.Proofs.Session.Answers
import ComponentLoader.Proofs.Session.Outcome
set_option autoImplicit false

/-!
# Loads that fail (SPEC §4.5, §7.1)

An entry is put only after its result has been made, so a load that fails puts none.  There
is one entry that it may have put before: a part of a template is loaded from a current
entry of the template, and when that is compiled anew for it the new entry stays, whatever
then becomes of the part.

Each lemma goes through the ways in which a step can fail.  They need nothing of the session, so the
statement is about all sessions, reached or not.
-/

namespace ComponentLoader

namespace Session

section

variable {project : Project} {files : FileTree} {id : Text} {path : FilePath}
  {session next : Session} {e : LoadError}

/-- Beside templates, identities, misses and counts of runs, the two sessions are the same. -/
structure Untouched (session next : Session) : Prop where
  stylesheets : next.stylesheets = session.stylesheets
  helpers : next.helpers = session.helpers
  sink : next.sink = session.sink
  hits : next.counts.hits = session.counts.hits

/-- The stale entry of the template at a path has given way to what its source is compiled to now,
and all other entries of templates are as they were. -/
structure Recompiles (session : Session) (project : Project) (files : FileTree) (path : FilePath)
    (next : Session) : Prop where
  replaced : ∃ old key memo compiled,
    session.templates.get? path.text = some old ∧
      session.identities.identity files path = .ok (key, memo) ∧
      (old.base.isValid files key memo).1 = false ∧
      project.compileIn ⟨files, session.helpers⟩ path = .ok compiled ∧
      next.templates.get? path.text = some (.ofCompiled key compiled)
  others : ∀ text, text ≠ path.text → next.templates.get? text = session.templates.get? text

/-- A template that cannot be made leaves everything but identities and counts of runs. -/
theorem EntryOutcome.eq_of_error (h : EntryOutcome project files path session (.error e next)) :
    ∃ memo runs, next = { session with identities := memo, runs := runs } := by
  cases h with
  | unidentified hidentity => exact ⟨session.identities, session.runs, rfl⟩
  | unreadable hidentity hstale hsource => exact ⟨_, session.runs, rfl⟩
  | refused hidentity hstale hsource hrefused => exact ⟨_, _, rfl⟩

theorem OwnerOutcome.eq_of_error (h : OwnerOutcome project files path session (.error e next)) :
    ∃ memo runs, next = { session with identities := memo, runs := runs } := by
  cases h with
  | missing hnone => exact ⟨session.identities, session.runs, rfl⟩
  | failed hold hentry => exact hentry.eq_of_error

theorem ProcessOutcome.eq_of_error {key : CacheKey} {source : Text} {request : StyleRequest}
    (h : ProcessOutcome project files key source request session (.error e next)) :
    ∃ memo runs, next = { session with identities := memo, runs := runs } := by
  cases h with
  | refused hprocess => exact ⟨session.identities, _, rfl⟩
  | unidentified hprocess hgrows hmem hidentity => exact ⟨_, _, rfl⟩

/-- The template of a part is kept, or compiled in place of a stale entry. -/
theorem OwnerOutcome.recompiles {template : TemplateEntry}
    (h : OwnerOutcome project files path session (.ok template next)) :
    session.Untouched next ∧
      (next.templates = session.templates ∨ session.Recompiles project files path next) := by
  cases h with
  | found hold hentry =>
      cases hentry with
      | kept hidentity hentry hvalid => exact ⟨⟨rfl, rfl, rfl, rfl⟩, Or.inl rfl⟩
      | @compiled key memo asked compiled hidentity hstale hcompiled =>
          refine ⟨⟨rfl, rfl, rfl, rfl⟩, Or.inr ⟨?_, ?_⟩⟩
          · rw [hold] at hstale
            cases hstale with
            | invalid hinvalid =>
                exact ⟨_, key, memo, compiled, hold, hidentity, by rw [hinvalid], hcompiled,
                  OrderedMap.get?_insert_self _ _ _⟩
          · intro text htext
            show (session.templates.insert path.text _).get? text = _
            rw [OrderedMap.get?_insert, if_neg]
            exact fun hcompare => htext (Std.LawfulEqOrd.eq_of_compare hcompare)

/-- What a failed load has done to the session. -/
theorem LoadOutcome.of_error (h : LoadOutcome project files id session (.error e next)) :
    session.Untouched next ∧
      (next.templates = session.templates ∨
        ∃ path request, project.Asks id path request ∧ request.isInline = true ∧
          session.Recompiles project files path next) := by
  cases h with
  | invalidId hparse hhandles => exact ⟨⟨rfl, rfl, rfl, rfl⟩, Or.inl rfl⟩
  | @served path request outcome hasks hserve =>
      cases hserve with
      | templateFailed hentry =>
          obtain ⟨memo, runs, rfl⟩ := hentry.eq_of_error
          exact ⟨⟨rfl, rfl, rfl, rfl⟩, Or.inl rfl⟩
      | ownerFailed hinline howner =>
          obtain ⟨memo, runs, rfl⟩ := howner.eq_of_error
          exact ⟨⟨rfl, rfl, rfl, rfl⟩, Or.inl rfl⟩
      | styleFailed howner hinline hstale hprocess =>
          obtain ⟨memo, runs, rfl⟩ := hprocess.eq_of_error
          obtain ⟨hframe, htemplates⟩ := howner.recompiles
          refine ⟨⟨hframe.stylesheets, hframe.helpers, hframe.sink, hframe.hits⟩, ?_⟩
          refine htemplates.imp_right fun hrecompiles => ?_
          exact ⟨path, _, hasks, rfl, hrecompiles.replaced, hrecompiles.others⟩
      | stylesheetUnidentified hidentity => exact ⟨⟨rfl, rfl, rfl, rfl⟩, Or.inl rfl⟩
      | stylesheetUnreadable hidentity hstale hsource =>
          exact ⟨⟨rfl, rfl, rfl, rfl⟩, Or.inl rfl⟩
      | stylesheetFailed hidentity hstale hsource hprocess =>
          obtain ⟨memo, runs, rfl⟩ := hprocess.eq_of_error
          exact ⟨⟨rfl, rfl, rfl, rfl⟩, Or.inl rfl⟩

end

end Session

/-- A load that fails leaves all results as they are, except that an inline resource may have been
the occasion for compiling its template anew, in place of a stale entry. -/
theorem untouched_of_fails {project : Project} {moment : Moment} {id : Text} {e : LoadError}
    (hfails : moment.Fails project id e) :
    moment.session.Untouched (moment.next project (.load id)).session ∧
      ((moment.next project (.load id)).session.templates = moment.session.templates ∨
        ∃ path request, project.Asks id path request ∧ request.isInline = true ∧
          moment.session.Recompiles project moment.files path
            (moment.next project (.load id)).session) := by
  obtain ⟨next, hrun⟩ := hfails
  have houtcome := Session.load_outcome project moment.files id moment.session
  rw [hrun] at houtcome
  have hnext : (moment.next project (.load id)).session = next := by
    show Session.after (Session.load project moment.files id) moment.session = next
    rw [Session.after_eq_left, hrun]
    rfl
  rw [hnext]
  exact houtcome.of_error

/-- The template was touched between the passes, and what its inline stylesheet imports is gone. -/
theorem untouched_of_missing_import :
    let project := Project.standard plainSettings
    let first := (Moment.fresh importTree).next project (.load "c.html")
    let removed := first.next project (.edit (.remove ⟨"b.scss"⟩))
    let touched := removed.next project (.edit (.touch ⟨"c.html"⟩ 7))
    let moment := touched.next project .buildStart
    let e : LoadError := .style (.preprocess ⟨"c.html"⟩ (.unresolvedImport "b"))
    moment.Fails project inlineStyleId e ∧
      moment.session.Untouched (moment.next project (.load inlineStyleId)).session ∧
      ((moment.next project (.load inlineStyleId)).session.templates = moment.session.templates ∨
        ∃ path request, project.Asks inlineStyleId path request ∧ request.isInline = true ∧
          moment.session.Recompiles project moment.files path
            (moment.next project (.load inlineStyleId)).session) := by
  intro project first removed touched moment e
  have hfails : moment.Fails project inlineStyleId e := by decide +kernel
  exact ⟨hfails, untouched_of_fails hfails⟩

end ComponentLoader
