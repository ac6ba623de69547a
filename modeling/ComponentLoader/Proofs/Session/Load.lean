import ComponentLoader.Proofs.Session.Inline
set_option autoImplicit false

/-!
# Requests in a scene (SPEC §4.5)

A session is grounded in a scene if it stands there and all its entries were made in scenes before.
Every request keeps it grounded, and what is answered for a stylesheet, a template or an inline
resource is what its specification says.
-/

namespace ComponentLoader.Session

/-- The session stands in a scene with entries that were made in some scenes. -/
def Grounded (session : Session) (project : Project) (seen : List Scene) (now : Scene) : Prop :=
  ∃ templates stylesheets, session.Stands now templates stylesheets ∧
    project.TemplatesFrom seen templates ∧ project.StylesheetsFrom seen stylesheets

variable {project : Project} {seen : List Scene} {now : Scene}

/-- A triple about any entries that were made in some scenes is one about grounded sessions. -/
theorem triple_of_grounded {α : Type} {step : SessionM α} {after : α → Session → Prop}
    {failed : Session → Prop}
    (h : ∀ templates stylesheets, project.TemplatesFrom seen templates →
      project.StylesheetsFrom seen stylesheets →
      Triple (Stands · now templates stylesheets) step after failed) :
    Triple (Grounded · project seen now) step after failed := by
  rintro session ⟨templates, stylesheets, hstands, htemplates, hstylesheets⟩
  exact h templates stylesheets htemplates hstylesheets session hstands

theorem KeepsTemplates.grounded {session : Session} {stylesheets : OrderedMap Text CacheEntry}
    (h : session.KeepsTemplates project seen now stylesheets)
    (hstylesheets : project.StylesheetsFrom seen stylesheets) :
    session.Grounded project seen now := by
  obtain ⟨templates, hstands, htemplates⟩ := h
  exact ⟨templates, stylesheets, hstands, htemplates, hstylesheets⟩

theorem HasTemplate.grounded {session : Session} {origin : Scene}
    {stylesheets : OrderedMap Text CacheEntry} {path : FilePath} {entry : TemplateEntry}
    (h : session.HasTemplate project seen now origin stylesheets path entry)
    (hstylesheets : project.StylesheetsFrom seen stylesheets) :
    session.Grounded project seen now := by
  obtain ⟨-, templates, hstands, htemplates, -⟩ := h
  exact ⟨templates, stylesheets, hstands, htemplates, hstylesheets⟩

/-! ## Requests -/

section

variable {id : Text} {path : FilePath}

theorem grounded_loadTemplate (hnow : now.Follows seen) :
    Triple (Grounded · project seen now) (loadTemplate project now.files path)
      (fun _ session => session.Grounded project seen now)
      (Grounded · project seen now) := by
  apply triple_of_grounded
  intro templates stylesheets htemplates hstylesheets
  obtain ⟨origin, hseen, horigin⟩ := Scene.exists_origin hnow.mem htemplates path
  refine (triple_loadTemplate hnow htemplates hseen horigin).weaken ?_ ?_
  · rintro loaded session ⟨-, entry, hhas⟩
    exact hhas.grounded hstylesheets
  · rintro session ⟨hstands, -⟩
    exact ⟨templates, stylesheets, hstands, htemplates, hstylesheets⟩

theorem grounded_loadStylesheet (hreports : project.toolchain.pipeline.preprocessor.ReportsReads)
    (hnow : now.Follows seen) {scope : Option Text}
    (hasks : project.Asks id path (.stylesheet scope)) :
    Triple (Grounded · project seen now) (loadStylesheet project now.files id path scope)
      (fun _ session => session.Grounded project seen now)
      (Grounded · project seen now) := by
  apply triple_of_grounded
  intro templates stylesheets htemplates hstylesheets
  refine (triple_loadStylesheet hreports hnow hstylesheets hasks).weaken ?_ ?_
  · rintro loaded session ⟨-, stylesheets', hstands, hstylesheets'⟩
    exact ⟨templates, stylesheets', hstands, htemplates, hstylesheets'⟩
  · rintro session ⟨hstands, -⟩
    exact ⟨templates, stylesheets, hstands, htemplates, hstylesheets⟩

theorem grounded_serve_resource (hreports : project.toolchain.pipeline.preprocessor.ReportsReads)
    (hnow : now.Follows seen) {request : Request} (hasks : project.Asks id path request)
    (hinline : request.isInline = true) :
    Triple (Grounded · project seen now) (serve project now.files id path request)
      (fun _ session => session.Grounded project seen now)
      (Grounded · project seen now) := by
  apply triple_of_grounded
  intro templates stylesheets htemplates hstylesheets
  refine (triple_serve_resource hreports hnow htemplates hasks hinline).weaken ?_ ?_
  · exact fun loaded session hafter => hafter.2.grounded hstylesheets
  · exact fun session hfailed => hfailed.1.grounded hstylesheets

theorem grounded_serve (hreports : project.toolchain.pipeline.preprocessor.ReportsReads)
    (hnow : now.Follows seen) {request : Request} (hasks : project.Asks id path request) :
    Triple (Grounded · project seen now) (serve project now.files id path request)
      (fun _ session => session.Grounded project seen now)
      (Grounded · project seen now) := by
  cases request with
  | template => exact Triple.map (grounded_loadTemplate hnow)
  | inlineScript index => exact grounded_serve_resource hreports hnow hasks rfl
  | inlineStyle scope index => exact grounded_serve_resource hreports hnow hasks rfl
  | stylesheet scope => exact Triple.map (grounded_loadStylesheet hreports hnow hasks)

/-- Every load keeps a session grounded, also one that fails. -/
theorem grounded_load (hreports : project.toolchain.pipeline.preprocessor.ReportsReads)
    (hnow : now.Follows seen) (id : Text) :
    Triple (Grounded · project seen now) (load project now.files id)
      (fun _ session => session.Grounded project seen now)
      (Grounded · project seen now) := by
  cases hparse : ModuleId.parse id with
  | error e =>
      unfold load
      rw [hparse]
      by_cases hhandles : project.settings.handles (ModuleId.pathOf id) = true
      · simp only [if_pos hhandles]
        exact Triple.throw fun _ h => h
      · simp only [if_neg hhandles]
        exact Triple.pure fun _ h => h
  | ok parsed =>
      cases hclassify : Request.classify project.settings parsed with
      | none =>
          unfold load
          rw [hparse]
          simp only [hclassify]
          exact Triple.pure fun _ h => h
      | some request =>
          have hasks : project.Asks id parsed.path request := ⟨parsed, hparse, rfl, hclassify⟩
          rw [load_of_asks hasks]
          exact grounded_serve hreports hnow hasks

end

end ComponentLoader.Session
