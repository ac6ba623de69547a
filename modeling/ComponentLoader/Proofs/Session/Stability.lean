import ComponentLoader.Proofs.Session.Answers
import ComponentLoader.Proofs.Session.Reached
set_option autoImplicit false

/-!
# Answers that stay (SPEC §8)

Two statements about a load that is repeated.  Within a pass the answer stays, whatever becomes of
the files, because the memo remembers every identity that the kept entries ask for.  Over passes in
which no file changes the answer stays too, and it is found without running any tool: there it is
the files that show the identities again.

Nothing is asked of the session before the first load in the one case.  In the other one it has to
be one that can be reached, and the preprocessor must report files only: a reported path that never
was a file may have an identity in one pass and none in the next, since a memo answers for all
spellings of a path and the file system does not.
-/

namespace ComponentLoader

/-- In a session whose entries record files only, so do those from which a request is answered. -/
theorem Session.Keeps.recordsFiles {project : Project} {session : Session}
    {fit : CacheEntry → FilePath → Prop} {id : Text} {path : FilePath} {request : Request}
    {loaded : LoadedModule} (h : session.Keeps fit id path request loaded)
    (hpath : path = ModuleId.pathOf id) (hcompiled : session.Compiled project)
    (hrecords : session.RecordsFiles) :
    path.NamesFile ∧ session.Keeps (fun entry path => fit entry path ∧ entry.RecordsFiles) id path
      request loaded := by
  cases h with
  | template hentry hfit =>
      obtain ⟨scene, compiled, hcompile⟩ := hcompiled path _ hentry
      obtain ⟨hnames, hbase⟩ := hcompile.namesFile
      exact ⟨hnames, .template hentry ⟨hfit, hbase⟩⟩
  | script hentry hfit hscript =>
      obtain ⟨scene, compiled, hcompile⟩ := hcompiled path _ hentry
      obtain ⟨hnames, hbase⟩ := hcompile.namesFile
      exact ⟨hnames, .script hentry ⟨hfit, hbase⟩ hscript⟩
  | style hentry hfit hinline hstyle hfitStyle =>
      obtain ⟨scene, compiled, hcompile⟩ := hcompiled path _ hentry
      obtain ⟨hnames, hbase⟩ := hcompile.namesFile
      have hkept := hrecords.styles path _ hentry id _ hstyle
      exact ⟨hnames, .style hentry ⟨hfit, hbase⟩ hinline hstyle ⟨hfitStyle, hkept⟩⟩
  | stylesheet hentry hfit =>
      obtain ⟨hnames, hkept⟩ := hrecords.stylesheets id _ hentry
      exact ⟨hpath ▸ hnames, .stylesheet hentry ⟨hfit, hkept⟩⟩

namespace Moment

variable {project : Project} {id : Text} {path : FilePath} {request : Request}
  {loaded : LoadedModule} {moment : Moment}

/-- The module can be answered with identities that the session remembers. -/
def Remembers (moment : Moment) (id : Text) (path : FilePath) (request : Request)
    (loaded : LoadedModule) : Prop :=
  moment.session.Keeps (fun entry path => entry.Pinned moment.session.identities path) id path
    request loaded

/-- The module can be answered with identities that the files show. -/
structure Shows (moment : Moment) (files : FileTree) (id : Text) (path : FilePath)
    (request : Request) (loaded : LoadedModule) : Prop where
  files_eq : moment.files = files
  holds : moment.session.identities.Holds files
  names : path.NamesFile
  keeps : moment.session.Keeps
    (fun entry path => entry.Shown files path ∧ entry.RecordsFiles) id path request loaded

theorem remembers_of_answers (h : moment.Answers project id (some loaded)) :
    ∃ path request, project.Asks id path request ∧
      (moment.next project (.load id)).Remembers id path request loaded :=
  Session.keeps_of_answers h

/-! ## Within a pass -/

theorem Remembers.next (h : moment.Remembers id path request loaded)
    (hpath : path = ModuleId.pathOf id) {event : Event} (hpass : event.startsPass = false)
    (hentries : event.clears = false) :
    (moment.next project event).Remembers id path request loaded := by
  cases event with
  | edit change => exact h
  | buildStart => cases hpass
  | clearCaches => cases hentries
  | takeDiagnostics => exact Session.Keeps.of_same h rfl rfl
  | load other =>
      have hretains := Session.retains_load project moment.files other moment.session
      have hkeeps := hretains.keeps h hpath fun entry hpinned => hpinned.usable moment.files
      exact hkeeps.mono fun entry hpinned => hpinned.grows hretains.identities

theorem Remembers.answers (h : moment.Remembers id path request loaded)
    (hasks : project.Asks id path request) : moment.Answers project id (some loaded) := by
  obtain ⟨memo, hserve⟩ := Session.serve_of_keeps project h fun entry hpinned =>
    hpinned.usable moment.files
  unfold Moment.Answers
  rw [Session.load_of_asks hasks]
  exact ⟨_, hserve⟩

/-! ## Over unchanged files -/

theorem holds_next (project : Project) {files : FileTree} (hfiles : moment.files = files)
    (hholds : moment.session.identities.Holds files) {event : Event}
    (hedits : event.edits = false) :
    (moment.next project event).files = files ∧
      (moment.next project event).session.identities.Holds files := by
  subst hfiles
  cases event with
  | edit change => cases hedits
  | buildStart =>
      have hempty := (Session.after_buildStart project moment.files moment.session).1
      exact ⟨rfl, hempty.symm ▸ IdentityMemo.holds_empty moment.files⟩
  | clearCaches => exact ⟨rfl, hholds⟩
  | takeDiagnostics => exact ⟨rfl, hholds⟩
  | load other =>
      have hretains := Session.retains_load project moment.files other moment.session
      exact ⟨rfl, hretains.identities.holds hholds⟩

theorem Shows.usable {files : FileTree} (h : moment.Shows files id path request loaded)
    (entry : CacheEntry) (hfit : entry.Shown files path ∧ entry.RecordsFiles) :
    entry.Usable moment.files moment.session.identities path := by
  obtain ⟨hshown, hrecords⟩ := hfit
  rw [h.files_eq]
  exact hshown.usable h.names hrecords h.holds

theorem Shows.next {files : FileTree} (h : moment.Shows files id path request loaded)
    (hpath : path = ModuleId.pathOf id) {event : Event} (hedits : event.edits = false)
    (hentries : event.clears = false) :
    (moment.next project event).Shows files id path request loaded := by
  obtain ⟨hfiles, hholds⟩ := holds_next project h.files_eq h.holds hedits
  refine ⟨hfiles, hholds, h.names, ?_⟩
  cases event with
  | edit change => cases hedits
  | buildStart =>
      obtain ⟨-, htemplates, hstylesheets, -⟩ :=
        Session.after_buildStart project moment.files moment.session
      exact h.keeps.of_same htemplates hstylesheets
  | clearCaches => cases hentries
  | takeDiagnostics => exact h.keeps.of_same rfl rfl
  | load other =>
      have hretains := Session.retains_load project moment.files other moment.session
      exact hretains.keeps h.keeps hpath h.usable

/-- What was answered while the memo was one of the files is shown by the files. -/
theorem shows_of_answers (hloads : project.toolchain.pipeline.preprocessor.LoadsFiles)
    (reached : moment.Reached project)
    (hholds : moment.session.identities.Holds moment.files)
    (h : moment.Answers project id (some loaded)) :
    ∃ path request, project.Asks id path request ∧
      (moment.next project (.load id)).Shows moment.files id path request loaded := by
  obtain ⟨path, request, hasks, hremembers⟩ := remembers_of_answers h
  obtain ⟨hfiles, hholdsNext⟩ : (moment.next project (.load id)).files = moment.files ∧
      (moment.next project (.load id)).session.identities.Holds moment.files :=
    holds_next project rfl hholds rfl
  have hreached : (moment.next project (.load id)).Reached project := reached.run [.load id]
  have hshown : (moment.next project (.load id)).session.Keeps
      (fun entry path => entry.Shown moment.files path) id path request loaded :=
    Session.Keeps.mono hremembers fun entry hpinned => hpinned.shown hholdsNext
  obtain ⟨hnames, hkeeps⟩ := hshown.recordsFiles hasks.path_eq hreached.compiled
    (hreached.recordsFiles hloads)
  exact ⟨path, request, hasks, hfiles, hholdsNext, hnames, hkeeps⟩

end Moment

/-! ## Repeated loads -/

section

variable {project : Project} {id : Text} {loaded : LoadedModule}

/-- What a load has answered is answered again until a pass begins or the entries are dropped,
whatever else is loaded in between and whatever becomes of the files. -/
theorem answers_throughout_pass {moment : Moment}
    (hanswer : moment.Answers project id (some loaded)) {events : List Event}
    (hpass : ∀ event ∈ events, event.startsPass = false ∧ event.clears = false) :
    ((moment.next project (.load id)).run project events).Answers project id (some loaded) := by
  obtain ⟨path, request, hasks, hremembers⟩ := Moment.remembers_of_answers hanswer
  have hlater : ((moment.next project (.load id)).run project events).Remembers id path request
      loaded := by
    refine Moment.run_of_step (P := fun moment => moment.Remembers id path request loaded) ?_
      hremembers
    intro moment event hmem h
    obtain ⟨hstarts, hclears⟩ := hpass event hmem
    exact h.next hasks.path_eq hstarts hclears
  exact hlater.answers hasks

/-- The template and what its inline stylesheet imports are rewritten and removed while the pass
goes on, and other modules are loaded. -/
theorem answers_throughout_edited_pass :
    let project := Project.standard plainSettings
    let moment := (Moment.fresh importTree).next project (.load "c.html")
    let events : List Event := [
      .edit (.write ⟨"b.scss"⟩ (Text.utf8 "q \x7b\x7d") 5),
      .load "a.scss",
      .edit (.remove ⟨"c.html"⟩),
      .load "c.html"]
    let loaded : LoadedModule :=
      { contents := "u.s \x7b\x7d\n", loader := .style, watchFiles := [⟨"b.scss"⟩, ⟨"c.html"⟩] }
    moment.Answers project inlineStyleId (some loaded) ∧
      (∀ event ∈ events, event.startsPass = false ∧ event.clears = false) ∧
      ((moment.next project (.load inlineStyleId)).run project events).Answers project inlineStyleId
        (some loaded) := by
  intro project moment events loaded
  have hanswer : moment.Answers project inlineStyleId (some loaded) := by decide +kernel
  have hpass : ∀ event ∈ events, event.startsPass = false ∧ event.clears = false := by
    simp [events, Event.startsPass, Event.clears]
  exact ⟨hanswer, hpass, answers_throughout_pass hanswer hpass⟩

/-- What was answered in a pass is answered again as long as no file changes, also in later
passes.  Nothing is made for it: of the session only the identities change, and one hit is
counted, except for a script. -/
theorem answers_again_unchanged (hloads : project.toolchain.pipeline.preprocessor.LoadsFiles)
    {start : Moment} (reached : start.Reached project) {before after : List Event}
    (hbefore : ∀ event ∈ before, event.edits = false)
    (hafter : ∀ event ∈ after, event.edits = false ∧ event.clears = false)
    (hanswer : ((start.next project .buildStart).run project before).Answers project id
      (some loaded)) :
    let asked := (start.next project .buildStart).run project before
    let later := (asked.next project (.load id)).run project after
    ∃ path request memo, project.Asks id path request ∧
      Session.load project later.files id later.session =
        .ok (some loaded)
          { later.session with
            identities := memo
            counts := Session.countsOfUse request later.session.counts } := by
  intro asked later
  have hstart := (Session.after_buildStart project start.files start.session).1
  obtain ⟨hfiles, hholds⟩ : asked.files = start.files ∧
      asked.session.identities.Holds start.files := by
    refine Moment.run_of_step (P := fun moment => moment.files = start.files ∧
      moment.session.identities.Holds start.files) ?_
      ⟨rfl, hstart.symm ▸ IdentityMemo.holds_empty start.files⟩
    intro moment event hmem h
    exact Moment.holds_next project h.1 h.2 (hbefore event hmem)
  have hreached : asked.Reached project := reached.run (.buildStart :: before)
  obtain ⟨path, request, hasks, hshows⟩ :=
    Moment.shows_of_answers hloads hreached (hfiles ▸ hholds) hanswer
  have hlater : later.Shows asked.files id path request loaded := by
    refine Moment.run_of_step (P := fun moment => moment.Shows asked.files id path request loaded)
      ?_ hshows
    intro moment event hmem h
    obtain ⟨hedits, hclears⟩ := hafter event hmem
    exact h.next hasks.path_eq hedits hclears
  obtain ⟨memo, hserve⟩ := Session.serve_of_keeps project hlater.keeps hlater.usable
  refine ⟨path, request, memo, hasks, ?_⟩
  rw [Session.load_of_asks hasks]
  exact hserve

/-- The inline stylesheet of a template in two passes, in the second one before its template. -/
theorem answers_again_in_second_pass :
    let project := Project.standard plainSettings
    let start := Moment.fresh importTree
    let before : List Event := [.load "c.html"]
    let after : List Event := [.load "a.scss", .buildStart, .load "a.scss"]
    let asked := (start.next project .buildStart).run project before
    let later := (asked.next project (.load inlineStyleId)).run project after
    let loaded : LoadedModule :=
      { contents := "u.s \x7b\x7d\n", loader := .style, watchFiles := [⟨"b.scss"⟩, ⟨"c.html"⟩] }
    project.toolchain.pipeline.preprocessor.LoadsFiles ∧ start.Reached project ∧
      (∀ event ∈ before, event.edits = false) ∧
      (∀ event ∈ after, event.edits = false ∧ event.clears = false) ∧
      asked.Answers project inlineStyleId (some loaded) ∧
      ∃ path request memo, project.Asks inlineStyleId path request ∧
        Session.load project later.files inlineStyleId later.session =
          .ok (some loaded)
            { later.session with
              identities := memo
              counts := Session.countsOfUse request later.session.counts } := by
  intro project start before after asked later loaded
  have hloads := (Project.reportsReads_standard plainSettings).loadsFiles
  have reached : start.Reached project := .fresh project importTree
  have hbefore : ∀ event ∈ before, event.edits = false := by
    simp [before, Event.edits]
  have hafter : ∀ event ∈ after, event.edits = false ∧ event.clears = false := by
    simp [after, Event.edits, Event.clears]
  have hanswer : asked.Answers project inlineStyleId (some loaded) := by decide +kernel
  exact ⟨hloads, reached, hbefore, hafter, hanswer,
    answers_again_unchanged hloads reached hbefore hafter hanswer⟩

end

end ComponentLoader
