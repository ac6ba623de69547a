import ComponentLoader.Proofs.Session.Failure
import ComponentLoader.Proofs.Session.Pass
import ComponentLoader.Proofs.Session.Reached
set_option autoImplicit false

/-!
# What the counts say (SPEC §4.2)

A load that answers counts a miss for the template that it compiled and one for the stylesheet that
it put through the pipeline, and a hit if it compiled and made nothing because an entry was still
valid.  `Accounts` says so between two sessions, and is shown for each way through a request.  A
compilation runs the parser once, so the runs of the parser are the compilations.

A load that fails may count a miss for what it could not make.  Of all events it is known that one
of them counts one hit and two misses at most, and from this what the counts are after a whole run:
the number of what was counted, modulo the size of a word.
-/

namespace ComponentLoader

/-! ## Counting -/

namespace CacheCounts

/-- The counts after some more hits and misses. -/
def plus (counts : CacheCounts) (hits misses : Nat) : CacheCounts where
  hits := counts.hits + .ofNat hits
  misses := counts.misses + .ofNat misses

/-- What has been counted in all. -/
def total (counts : CacheCounts) : Nat :=
  counts.hits.toNat + counts.misses.toNat

variable (counts : CacheCounts) (hits misses : Nat)

@[simp]
theorem plus_zero : counts.plus 0 0 = counts := by
  simp [plus]

theorem hit_eq_plus : counts.hit = counts.plus 1 0 := by
  simp [hit, plus]

theorem miss_eq_plus : counts.miss = counts.plus 0 1 := by
  simp [miss, plus]

theorem plus_plus (moreHits moreMisses : Nat) :
    (counts.plus hits misses).plus moreHits moreMisses =
      counts.plus (hits + moreHits) (misses + moreMisses) := by
  simp [plus, UInt64.ofNat_add, UInt64.add_assoc]

theorem since_plus : (counts.plus hits misses).since counts = plus {} hits misses := by
  have hcancel (word more : UInt64) : word + more - word = more := by
    rw [UInt64.add_comm, UInt64.add_sub_cancel]
  simp [plus, since, hcancel]

/-- Counts that do not exceed a word are numbers. -/
theorem toNat_plus {counts : CacheCounts} {hits misses : Nat}
    (h : counts.total + (hits + misses) < UInt64.size) :
    (counts.plus hits misses).hits.toNat = counts.hits.toNat + hits ∧
      (counts.plus hits misses).misses.toNat = counts.misses.toNat + misses := by
  unfold total at h
  have hsize : UInt64.size = 2 ^ 64 := rfl
  constructor
  · simp only [plus, UInt64.toNat_add, UInt64.toNat_ofNat']
    omega
  · simp only [plus, UInt64.toNat_add, UInt64.toNat_ofNat']
    omega

/-- The same of counts that begin with nothing. -/
theorem toNat_plus_empty {hits misses : Nat} (h : hits + misses < UInt64.size) :
    (plus {} hits misses).hits.toNat = hits ∧ (plus {} hits misses).misses.toNat = misses := by
  have hnone : total {} + (hits + misses) < UInt64.size := by
    rwa [show total {} = 0 from rfl, Nat.zero_add]
  simpa using toNat_plus hnone

theorem total_plus_empty {hits misses : Nat} (h : hits + misses < UInt64.size) :
    (plus {} hits misses).total = hits + misses := by
  obtain ⟨hhits, hmisses⟩ := toNat_plus_empty h
  rw [total, hhits, hmisses]

/-- The earlier counts are below the later ones, and the difference is what
was counted in between. -/
structure Precedes (earlier later : CacheCounts) : Prop where
  hits_le : earlier.hits ≤ later.hits
  misses_le : earlier.misses ≤ later.misses
  hits_since : earlier.hits.toNat + (later.since earlier).hits.toNat = later.hits.toNat
  misses_since : earlier.misses.toNat + (later.since earlier).misses.toNat = later.misses.toNat

theorem precedes_plus {counts : CacheCounts} {hits misses : Nat}
    (h : counts.total + (hits + misses) < UInt64.size) :
    counts.Precedes (counts.plus hits misses) := by
  obtain ⟨hhits, hmisses⟩ := toNat_plus h
  have hsince := toNat_plus_empty (Nat.lt_of_le_of_lt (Nat.le_add_left _ _) h)
  refine ⟨?_, ?_, ?_, ?_⟩
  · rw [UInt64.le_iff_toNat_le, hhits]
    exact Nat.le_add_right _ _
  · rw [UInt64.le_iff_toNat_le, hmisses]
    exact Nat.le_add_right _ _
  · rw [since_plus, hsince.1, hhits]
  · rw [since_plus, hsince.2, hmisses]

end CacheCounts

namespace Session

/-- Between two sessions so many hits were counted, and as misses so many compilations and
runs of the pipeline. -/
structure Accounts (session next : Session) (hits compiled styled : Nat) : Prop where
  counts : next.counts = session.counts.plus hits (compiled + styled)
  parser : next.runs.parser = session.runs.parser + compiled
  pipeline : next.runs.pipeline = session.runs.pipeline + styled

theorem Accounts.trans {session middle next : Session}
    {hits hits' compiled compiled' styled styled' : Nat}
    (h : session.Accounts middle hits compiled styled)
    (h' : middle.Accounts next hits' compiled' styled') :
    session.Accounts next (hits + hits') (compiled + compiled') (styled + styled') where
  counts := by rw [h'.counts, h.counts, CacheCounts.plus_plus, Nat.add_add_add_comm]
  parser := by rw [h'.parser, h.parser, Nat.add_assoc]
  pipeline := by rw [h'.pipeline, h.pipeline, Nat.add_assoc]

/-- What is kept does not matter for this. -/
theorem Accounts.congr {session next next' : Session} {hits compiled styled : Nat}
    (h : session.Accounts next hits compiled styled) (hcounts : next'.counts = next.counts)
    (hruns : next'.runs = next.runs) : session.Accounts next' hits compiled styled where
  counts := by rw [hcounts, h.counts]
  parser := by rw [hruns, h.parser]
  pipeline := by rw [hruns, h.pipeline]

/-! ## Answers from entries -/

section

variable {project : Project} {files : FileTree} {id : Text} {path : FilePath}
    {session next : Session}

/-- The entry of the template may be used, and is in a session with these identities. -/
def HasValidTemplate (session : Session) (files : FileTree) (path : FilePath)
    (entry : TemplateEntry) (next : IdentityMemo) : Prop :=
  ∃ key memo, session.identities.identity files path = .ok (key, memo) ∧
    session.templates.get? path.text = some entry ∧
    entry.base.isValid files key memo = (true, next)

/-- A request is answered from an entry that may be used: of the template, of an inline stylesheet
in the entry of its template, or of the stylesheet.  Nothing is said of inline scripts: these are
part of the entry of their template and have none. -/
inductive FromEntry (session : Session) (files : FileTree) (id : Text) (path : FilePath) :
    Request → LoadedModule → IdentityMemo → Prop where
  | template {entry : TemplateEntry} {memo : IdentityMemo}
      (htemplate : session.HasValidTemplate files path entry memo) :
      FromEntry session files id path .template entry.loaded memo
  | inlineStyle {scope : Option Text} {index : Option UInt64} {entry : TemplateEntry}
      {middle memo : IdentityMemo} {style : CacheEntry}
      (htemplate : session.HasValidTemplate files path entry middle)
      (hinline : (inlineStyle? entry index).isSome = true)
      (hstyle : entry.styleCache.get? id = some style)
      (hvalid : style.isValid files entry.base.key middle = (true, memo)) :
      FromEntry session files id path (.inlineStyle scope index) (styleModule style) memo
  | stylesheet {scope : Option Text} {key : CacheKey} {middle memo : IdentityMemo}
      {entry : CacheEntry}
      (hidentity : session.identities.identity files path = .ok (key, middle))
      (hentry : session.stylesheets.get? id = some entry)
      (hvalid : entry.isValid files key middle = (true, memo)) :
      FromEntry session files id path (.stylesheet scope) (styleModule entry) memo

theorem HasValidTemplate.templateEntry {entry : TemplateEntry} {memo : IdentityMemo}
    (h : session.HasValidTemplate files path entry memo) (project : Project) :
    templateEntry project files path session =
      .ok (entry, true) { session with identities := memo } := by
  obtain ⟨key, middle, hidentity, hentry, hvalid⟩ := h
  unfold Session.templateEntry
  simp only [run_bind, identity_ok hidentity, run_get, hentry]
  rw [isValid_ok hvalid]
  rfl

/-- A template that may be used is answered for its parts, and nothing is counted. -/
theorem HasValidTemplate.owningTemplate {entry : TemplateEntry} {memo : IdentityMemo}
    (h : session.HasValidTemplate files path entry memo) (project : Project) :
    owningTemplate project files path session = .ok entry { session with identities := memo } := by
  have hrun := h.templateEntry project
  obtain ⟨key, middle, hidentity, hentry, hvalid⟩ := h
  unfold Session.owningTemplate
  simp only [run_bind, run_get, hentry, Option.isNone_some, Bool.false_eq_true, if_false, run_pure,
    hrun, Bool.not_true]

/-- What may be used is answered, and a hit is counted. -/
theorem FromEntry.serve {request : Request} {loaded : LoadedModule} {memo : IdentityMemo}
    (h : session.FromEntry files id path request loaded memo) (project : Project) :
    serve project files id path request session =
      .ok (some loaded) { session with identities := memo, counts := session.counts.hit } := by
  unfold Session.serve
  cases h with
  | template htemplate =>
      unfold loadTemplate
      simp only [run_map, run_bind, htemplate.templateEntry project]
      rfl
  | @inlineStyle scope index entry middle memo style htemplate hinline hstyle hvalid =>
      obtain ⟨⟨content, lang⟩, hinline⟩ := Option.isSome_iff_exists.mp hinline
      unfold loadInlineStyle
      simp only [run_bind, htemplate.owningTemplate project, hinline, hstyle]
      rw [isValid_ok hvalid]
      rfl
  | stylesheet hidentity hentry hvalid =>
      unfold loadStylesheet
      simp only [run_map, run_bind, identity_ok hidentity, run_get, hentry]
      rw [isValid_ok hvalid]
      rfl

/-! ## Ways through a request -/

/-- The template of a part is kept without anything being counted, or is compiled and counted; it
has no stylesheets then. -/
theorem OwnerOutcome.accounts {entry : TemplateEntry}
    (h : OwnerOutcome project files path session (.ok entry next)) :
    ∃ compiled ≤ 1, session.Accounts next 0 compiled 0 ∧
      (entry.styleCache = .empty ∨
        compiled = 0 ∧ session.HasValidTemplate files path entry next.identities) := by
  cases h with
  | found hold hentry =>
      cases hentry with
      | kept hidentity hentry hvalid =>
          exact ⟨0, by decide, ⟨(CacheCounts.plus_zero _).symm, rfl, rfl⟩,
            Or.inr ⟨rfl, _, _, hidentity, hentry, hvalid⟩⟩
      | compiled hidentity hstale hcompiled =>
          exact ⟨1, by decide, ⟨CacheCounts.miss_eq_plus _, rfl, rfl⟩, Or.inl rfl⟩

/-- A stylesheet that is made is counted before it is put through the pipeline. -/
theorem ProcessOutcome.accounts {key : CacheKey} {source : Text} {request : StyleRequest}
    {made : CacheEntry} {memo : IdentityMemo}
    (h : ProcessOutcome project files key source request
      { session with identities := memo, counts := session.counts.miss } (.ok made next)) :
    session.Accounts next 0 0 1 := by
  cases h with
  | processed hprocess hgrows hpaths hremembers hkeys =>
      exact ⟨CacheCounts.miss_eq_plus _, rfl, rfl⟩

/-- A request that is answered counts what was made for it, at most a template and a stylesheet, or
a hit if it is answered from an entry. -/
theorem ServeOutcome.accounts {request : Request} {answer : Option LoadedModule}
    (h : ServeOutcome project files id path session request (.ok answer next)) :
    ∃ hits compiled styled, session.Accounts next hits compiled styled ∧
      hits ≤ 1 ∧ compiled ≤ 1 ∧ styled ≤ 1 ∧
      (hits = 0 ∨ ∃ loaded memo, answer = some loaded ∧
        session.FromEntry files id path request loaded memo) := by
  cases h with
  | template hentry =>
      cases hentry with
      | kept hidentity hentry hvalid =>
          refine ⟨1, 0, 0, ⟨CacheCounts.hit_eq_plus _, rfl, rfl⟩, by decide, by decide, by decide,
            Or.inr ?_⟩
          exact ⟨_, _, rfl, .template ⟨_, _, hidentity, hentry, hvalid⟩⟩
      | compiled hidentity hstale hcompiled =>
          exact ⟨0, 1, 0, ⟨CacheCounts.miss_eq_plus _, rfl, rfl⟩, by decide, by decide, by decide,
            Or.inl rfl⟩
  | noScript howner hnone | noStyle howner hnone =>
      obtain ⟨compiled, hcompiled, haccounts, -⟩ := howner.accounts
      exact ⟨0, compiled, 0, haccounts.congr rfl rfl, by decide, hcompiled, by decide, Or.inl rfl⟩
  | script howner hscript =>
      obtain ⟨compiled, hcompiled, haccounts, -⟩ := howner.accounts
      exact ⟨0, compiled, 0, haccounts, by decide, hcompiled, by decide, Or.inl rfl⟩
  | @styleKept scope index entry middle content lang style memo howner hinline hstyle hvalid =>
      obtain ⟨compiled, hcompiled, haccounts, hempty | ⟨rfl, htemplate⟩⟩ := howner.accounts
      · -- a template that was just compiled has no stylesheet
        rw [hempty] at hstyle
        cases hstyle
      · have hhit : middle.Accounts
            { middle with identities := memo, counts := middle.counts.hit } 1 0 0 :=
          ⟨CacheCounts.hit_eq_plus _, rfl, rfl⟩
        refine ⟨1, 0, 0, haccounts.trans hhit, by decide, by decide, by decide, ?_⟩
        exact Or.inr ⟨_, _, rfl, .inlineStyle htemplate (by rw [hinline]; rfl) hstyle hvalid⟩
  | styleMade howner hinline hstale hprocess =>
      obtain ⟨compiled, hcompiled, haccounts, -⟩ := howner.accounts
      exact ⟨0, compiled, 1, (haccounts.trans hprocess.accounts).congr rfl rfl, by decide,
        hcompiled, by decide, Or.inl rfl⟩
  | stylesheetKept hidentity hentry hvalid =>
      refine ⟨1, 0, 0, ⟨CacheCounts.hit_eq_plus _, rfl, rfl⟩, by decide, by decide, by decide, ?_⟩
      exact Or.inr ⟨_, _, rfl, .stylesheet hidentity hentry hvalid⟩
  | stylesheetMade hidentity hstale hsource hprocess =>
      exact ⟨0, 0, 1, hprocess.accounts.congr rfl rfl, by decide, by decide, by decide, Or.inl rfl⟩

/-- A request that fails counts no hit, and a miss at most for its template and
one for its stylesheet. -/
theorem ServeOutcome.counts_of_error {request : Request} {e : LoadError}
    (h : ServeOutcome project files id path session request (.error e next)) :
    ∃ misses ≤ 2, next.counts = session.counts.plus 0 misses := by
  cases h with
  | templateFailed hentry =>
      obtain ⟨memo, runs, rfl⟩ := hentry.eq_of_error
      exact ⟨0, by decide, (CacheCounts.plus_zero _).symm⟩
  | ownerFailed hinline howner =>
      obtain ⟨memo, runs, rfl⟩ := howner.eq_of_error
      exact ⟨0, by decide, (CacheCounts.plus_zero _).symm⟩
  | @styleFailed scope index entry middle next content lang memo e howner hinline hstale hprocess =>
      obtain ⟨memo', runs, rfl⟩ := hprocess.eq_of_error
      obtain ⟨compiled, hcompiled, haccounts, -⟩ := howner.accounts
      refine ⟨compiled + 1, by omega, ?_⟩
      show middle.counts.miss = _
      rw [CacheCounts.miss_eq_plus, haccounts.counts, CacheCounts.plus_plus]
  | stylesheetUnidentified hidentity => exact ⟨0, by decide, (CacheCounts.plus_zero _).symm⟩
  | stylesheetUnreadable hidentity hstale hsource =>
      exact ⟨1, by decide, CacheCounts.miss_eq_plus _⟩
  | stylesheetFailed hidentity hstale hsource hprocess =>
      obtain ⟨memo', runs, rfl⟩ := hprocess.eq_of_error
      exact ⟨1, by decide, CacheCounts.miss_eq_plus _⟩

/-- Whatever becomes of a load, it counts one hit and two misses at most. -/
theorem LoadOutcome.counts {outcome : Outcome (Option LoadedModule)}
    (h : LoadOutcome project files id session outcome) :
    ∃ hits ≤ 1, ∃ misses ≤ 2, (left outcome).counts = session.counts.plus hits misses := by
  cases h with
  | invalidId hparse hhandles => exact ⟨0, by decide, 0, by decide, (CacheCounts.plus_zero _).symm⟩
  | foreign hnone => exact ⟨0, by decide, 0, by decide, (CacheCounts.plus_zero _).symm⟩
  | served hasks hserve =>
      cases outcome with
      | ok answer next =>
          obtain ⟨hits, compiled, styled, haccounts, hhits, hcompiled, hstyled, -⟩ :=
            hserve.accounts
          exact ⟨hits, hhits, compiled + styled, by omega, haccounts.counts⟩
      | error e next =>
          obtain ⟨misses, hmisses, hcounts⟩ := hserve.counts_of_error
          exact ⟨0, by decide, misses, hmisses, hcounts⟩

end

end Session

/-! ## Loads -/

namespace Moment

section

variable {project : Project} {moment : Moment} {id : Text} {answer : Option LoadedModule}

/-- A load of this id has this answer from an entry that may be used. -/
def AnswersFromEntry (project : Project) (moment : Moment) (id : Text)
    (answer : Option LoadedModule) : Prop :=
  ∃ path request loaded memo, project.Asks id path request ∧ answer = some loaded ∧
    moment.session.FromEntry moment.files id path request loaded memo

/-- What may be answered from an entry is, and a hit is counted. -/
theorem AnswersFromEntry.hits (h : moment.AnswersFromEntry project id answer) :
    (moment.next project (.load id)).session.counts.hits = moment.session.counts.hits + 1 := by
  obtain ⟨path, request, loaded, memo, hasks, -, hentry⟩ := h
  show (Session.after (Session.load project moment.files id) moment.session).counts.hits = _
  rw [Session.after_eq_left, Session.load_of_asks hasks, hentry.serve project]
  rfl

/-- No inline script is answered from an entry of its own. -/
theorem not_answersFromEntry_of_script {path : FilePath} {index : UInt64}
    (hasks : project.Asks id path (.inlineScript index)) :
    ¬moment.AnswersFromEntry project id answer := by
  rintro ⟨path', request, loaded, memo, hasks', -, hentry⟩
  obtain ⟨rfl, rfl⟩ := hasks.unique hasks'
  cases hentry

/-- What a load counts that answers. -/
theorem Answers.accounts (h : moment.Answers project id answer) :
    ∃ hits compiled styled,
      moment.session.Accounts (moment.next project (.load id)).session hits compiled styled ∧
      (hits = 0 ∨ moment.AnswersFromEntry project id answer) := by
  obtain ⟨next, hrun⟩ := h
  have houtcome := Session.load_outcome project moment.files id moment.session
  have hnext : (moment.next project (.load id)).session = next := by
    show Session.after (Session.load project moment.files id) moment.session = next
    rw [Session.after_eq_left, hrun]
    rfl
  rw [hnext]
  rw [hrun] at houtcome
  cases houtcome with
  | foreign hnone => exact ⟨0, 0, 0, ⟨(CacheCounts.plus_zero _).symm, rfl, rfl⟩, Or.inl rfl⟩
  | served hasks hserve =>
      obtain ⟨hits, compiled, styled, haccounts, -, -, -, hentry⟩ := hserve.accounts
      refine ⟨hits, compiled, styled, haccounts, hentry.imp_right ?_⟩
      rintro ⟨loaded, memo, hanswer, hentry⟩
      exact ⟨_, _, loaded, memo, hasks, hanswer, hentry⟩

end

/-! ## Runs -/

/-- How many hits and misses an event counts. -/
def counted (project : Project) (moment : Moment) (event : Event) : Nat :=
  ((moment.next project event).session.counts.since moment.session.counts).total

/-- How many hits and misses some events count, one after the other. -/
def countedIn (project : Project) : Moment → List Event → Nat
  | _, [] => 0
  | moment, event :: rest =>
    moment.counted project event + countedIn project (moment.next project event) rest

variable (project : Project)

/-- One event counts one hit and two misses at most, and nothing if it is not a load. -/
theorem counts_next (moment : Moment) (event : Event) :
    ∃ hits ≤ 1, ∃ misses ≤ 2,
      (moment.next project event).session.counts = moment.session.counts.plus hits misses := by
  cases event with
  | edit change => exact ⟨0, by decide, 0, by decide, (CacheCounts.plus_zero _).symm⟩
  | buildStart =>
      refine ⟨0, by decide, 0, by decide, ?_⟩
      show (Session.after (Session.buildStart project moment.files) moment.session).counts = _
      rw [Session.after_eq_left, CacheCounts.plus_zero]
      cases hscan : scanHelpers project.toolchain.exports moment.files project.settings.helpers with
      | ok scan => rw [Session.buildStart_of_ok moment.session hscan]; rfl
      | error e => rw [Session.buildStart_of_error moment.session hscan]; rfl
  | clearCaches => exact ⟨0, by decide, 0, by decide, (CacheCounts.plus_zero _).symm⟩
  | takeDiagnostics => exact ⟨0, by decide, 0, by decide, (CacheCounts.plus_zero _).symm⟩
  | load id =>
      obtain ⟨hits, hhits, misses, hmisses, hcounts⟩ :=
        (Session.load_outcome project moment.files id moment.session).counts
      refine ⟨hits, hhits, misses, hmisses, ?_⟩
      rw [← hcounts, ← Session.after_eq_left]
      rfl

/-- What an event counts are its hits and its misses. -/
theorem counted_eq {project : Project} {moment : Moment} {event : Event} {hits misses : Nat}
    (hhits : hits ≤ 1) (hmisses : misses ≤ 2)
    (h : (moment.next project event).session.counts = moment.session.counts.plus hits misses) :
    moment.counted project event = hits + misses := by
  have hsize : UInt64.size = 2 ^ 64 := rfl
  unfold counted
  rw [h, CacheCounts.since_plus, CacheCounts.total_plus_empty (by omega)]

theorem countedIn_append (moment : Moment) (before between : List Event) :
    countedIn project moment (before ++ between) =
      countedIn project moment before + countedIn project (moment.run project before) between := by
  induction before generalizing moment with
  | nil => simp [countedIn, run]
  | cons event rest ih =>
      rw [List.cons_append, countedIn, countedIn, ih, Nat.add_assoc]
      rfl

/-- The counts after a run are those before it and what was counted on the way. -/
theorem counts_run (moment : Moment) (events : List Event) :
    ∃ hits misses, hits + misses = countedIn project moment events ∧
      (moment.run project events).session.counts = moment.session.counts.plus hits misses := by
  induction events generalizing moment with
  | nil => exact ⟨0, 0, rfl, (CacheCounts.plus_zero _).symm⟩
  | cons event rest ih =>
      obtain ⟨hits, hhits, misses, hmisses, hnext⟩ := counts_next project moment event
      obtain ⟨hits', misses', htotal, hrun⟩ := ih (moment.next project event)
      refine ⟨hits + hits', misses + misses', ?_, ?_⟩
      · rw [countedIn, counted_eq hhits hmisses hnext, ← htotal]
        omega
      · rw [← CacheCounts.plus_plus, ← hnext]
        exact hrun

end Moment

/-! ## All that is counted -/

/-- A load that answers counts as misses what it compiled and what it put through the
pipeline, and a hit exactly if the answer is from an entry.  From a fresh session on the
counts go on as long as fewer events are counted than a word can count, so that what has been
counted since is their difference. -/
theorem counts_account_for_work (project : Project) :
    (∀ (moment : Moment) (id : Text) (answer : Option LoadedModule),
      moment.Answers project id answer →
      let before := moment.session
      let after := (moment.next project (.load id)).session
      (∃ compiled styled, after.runs.parser = before.runs.parser + compiled ∧
        after.runs.pipeline = before.runs.pipeline + styled ∧
        after.counts.misses = before.counts.misses + .ofNat (compiled + styled)) ∧
      (moment.AnswersFromEntry project id answer → after.counts.hits = before.counts.hits + 1) ∧
      (¬moment.AnswersFromEntry project id answer → after.counts.hits = before.counts.hits) ∧
      ∀ path index, project.Asks id path (.inlineScript index) →
        after.counts.hits = before.counts.hits) ∧
    ∀ (files : FileTree) (before between : List Event),
      Moment.countedIn project (.fresh files) (before ++ between) < UInt64.size →
      let earlier := (Moment.fresh files).run project before
      let later := earlier.run project between
      earlier.session.counts.Precedes later.session.counts := by
  constructor
  · intro moment id answer hanswers before after
    obtain ⟨hits, compiled, styled, haccounts, hentry⟩ := hanswers.accounts
    have hnone : ¬moment.AnswersFromEntry project id answer →
        after.counts.hits = before.counts.hits := by
      intro hnot
      obtain rfl : hits = 0 := hentry.resolve_right hnot
      have hcounts : after.counts = before.counts.plus 0 (compiled + styled) := haccounts.counts
      rw [hcounts]
      exact UInt64.add_zero before.counts.hits
    refine ⟨⟨compiled, styled, haccounts.parser, haccounts.pipeline, ?_⟩, fun h => h.hits, hnone,
      ?_⟩
    · rw [haccounts.counts]
      rfl
    · exact fun path index hasks => hnone (Moment.not_answersFromEntry_of_script hasks)
  · intro files before between hfew earlier later
    obtain ⟨hits, misses, htotal, hearlier⟩ :=
      Moment.counts_run project (.fresh files) before
    obtain ⟨hits', misses', htotal', hlater⟩ :=
      Moment.counts_run project earlier between
    rw [Moment.countedIn_append, ← htotal, ← htotal'] at hfew
    show earlier.session.counts.Precedes later.session.counts
    rw [hlater]
    apply CacheCounts.precedes_plus
    have hsum : earlier.session.counts.total = hits + misses := by
      show ((Moment.fresh files).run project before).session.counts.total = _
      rw [hearlier]
      exact CacheCounts.total_plus_empty (by omega)
    omega

/-- An inline stylesheet is loaded again in a second pass, after its template and itself
were made in the first. -/
theorem counts_account_for_work_inline :
    let project := Project.standard plainSettings
    let before : List Event := [.load "c.html", .load inlineStyleId]
    let between : List Event := [.buildStart, .load inlineStyleId]
    let made := (Moment.fresh importTree).run project before
    let moment := made.next project .buildStart
    let loaded : LoadedModule :=
      { contents := "u.s \x7b\x7d\n", loader := .style, watchFiles := [⟨"b.scss"⟩, ⟨"c.html"⟩] }
    moment.Answers project inlineStyleId (some loaded) ∧
      Moment.countedIn project (.fresh importTree) (before ++ between) < UInt64.size ∧
      moment.AnswersFromEntry project inlineStyleId (some loaded) ∧
      (moment.next project (.load inlineStyleId)).session.counts.hits =
        moment.session.counts.hits + 1 ∧
      made.session.counts.Precedes (made.run project between).session.counts := by
  intro project before between made moment loaded
  have hanswers : moment.Answers project inlineStyleId (some loaded) := by decide +kernel
  have hfew : Moment.countedIn project (.fresh importTree) (before ++ between) < UInt64.size := by
    decide +kernel
  obtain ⟨hload, hrun⟩ := counts_account_for_work project
  obtain ⟨-, hhit, hnone, -⟩ := hload moment inlineStyleId (some loaded) hanswers
  have hentry : moment.AnswersFromEntry project inlineStyleId (some loaded) := by
    by_contra hnot
    exact absurd (hnone hnot) (by decide +kernel)
  exact ⟨hanswers, hfew, hentry, hhit hentry, hrun importTree before between hfew⟩

end ComponentLoader
