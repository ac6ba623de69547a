import ComponentLoader.Proofs.Module.Id
import ComponentLoader.Session.Load
set_option autoImplicit false

/-!
# What an id asks for (SPEC §4.5)

An id asks for at most one thing of one file, and a load does nothing else than to serve that.  A
resource inside a template is asked for by the path of the template with a query, so the path alone
asks for the template.
-/

namespace ComponentLoader

/-- The id asks for this, of the file at this path. -/
def Project.Asks (project : Project) (id : Text) (path : FilePath) (request : Request) : Prop :=
  ∃ parsed, ModuleId.parse id = .ok parsed ∧ parsed.path = path ∧
    Request.classify project.settings parsed = some request

/-- An id asks for one thing. -/
theorem Project.Asks.unique {project : Project} {id : Text} {path path' : FilePath}
    {request request' : Request} (h : project.Asks id path request)
    (h' : project.Asks id path' request') : path = path' ∧ request = request' := by
  obtain ⟨parsed, hparse, rfl, hclassify⟩ := h
  obtain ⟨parsed', hparse', rfl, hclassify'⟩ := h'
  obtain rfl : parsed = parsed' := Except.ok.inj (hparse.symm.trans hparse')
  exact ⟨rfl, Option.some.inj (hclassify.symm.trans hclassify')⟩

/-- What an id asks for is at the path before its first question mark. -/
theorem Project.Asks.path_eq {project : Project} {id : Text} {path : FilePath} {request : Request}
    (h : project.Asks id path request) : path = ModuleId.pathOf id := by
  obtain ⟨parsed, hparse, rfl, -⟩ := h
  exact ModuleId.path_eq_pathOf hparse

/-- Whether a request is for a resource inside a template. -/
def Request.isInline : Request → Bool
  | .inlineScript _ | .inlineStyle _ _ => true
  | .template | .stylesheet _ => false

/-- Where an id asks for a template or a part of one, the path asks for the template, and with every
query for the part that the query is for. -/
theorem Request.classify_part {settings : Settings} {id : ModuleId} {request : Request}
    (h : classify settings id = some request) (hnot : ∀ scope, request ≠ .stylesheet scope)
    (part : Option ModulePart) :
    classify settings ⟨id.path, part⟩ = some (part.elim .template ModulePart.request) := by
  unfold classify at h ⊢
  cases hkind : id.path.kind? with
  | none => simp [hkind] at h
  | some extension =>
      simp only [hkind] at h ⊢
      by_cases htemplate : settings.isTemplateExtension extension = true
      · rw [if_pos htemplate]
        cases part <;> rfl
      · rw [if_neg htemplate] at h
        split at h
        · cases h
          exact absurd rfl (hnot _)
        · cases h

/-- The path of an inline resource asks by itself for the template that it belongs to. -/
theorem Project.Asks.template {project : Project} {id : Text} {path : FilePath} {request : Request}
    (h : project.Asks id path request) (hinline : request.isInline = true) :
    project.Asks path.text path .template := by
  obtain ⟨parsed, hparse, rfl, hclassify⟩ := h
  have hpath := ModuleId.not_mem_path_of_parse hparse
  refine ⟨⟨parsed.path, none⟩, ModuleId.parse_path_iff.mpr hpath, rfl, ?_⟩
  refine Request.classify_part hclassify ?_ none
  rintro scope rfl
  cases hinline

/-- With a query for one of its parts, the path of a template asks for that part. -/
theorem Project.Asks.part {project : Project} {path : FilePath}
    (h : project.Asks path.text path .template) {part : ModulePart} (hpart : part.Writable) :
    project.Asks (ModuleId.text ⟨path, some part⟩) path part.request := by
  obtain ⟨parsed, hparse, rfl, hclassify⟩ := h
  have hpath := ModuleId.not_mem_path_of_parse hparse
  refine ⟨⟨parsed.path, some part⟩, ModuleId.parse_text hpath ?_, rfl, ?_⟩
  · rintro part' ⟨⟩
    exact hpart
  · exact Request.classify_part hclassify (fun _ h => nomatch h) (some part)

/-- An id that asks for something is served. -/
theorem Session.load_of_asks {project : Project} {id : Text} {path : FilePath} {request : Request}
    (h : project.Asks id path request) (files : FileTree) :
    load project files id = serve project files id path request := by
  obtain ⟨parsed, hparse, rfl, hclassify⟩ := h
  unfold load
  rw [hparse]
  simp only [hclassify]

end ComponentLoader
