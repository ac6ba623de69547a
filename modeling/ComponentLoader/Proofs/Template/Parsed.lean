import ComponentLoader.Template.Parsed
set_option autoImplicit false

/-!
# What a template is parsed to (SPEC §4.4)

Every element of a source takes some of its characters, so a template has fewer scripts and
stylesheets than its source has characters.  An element that refers to no file is inside the
template with all that stands between its tags, even if that is nothing.
-/

namespace ComponentLoader

/-- A resource inside the template has a text. -/
def ResourceNode.HasText (node : ResourceNode) : Prop :=
  node.href = none → ∃ text, node.content = some text

namespace Markup

theorem Element.hasText_resource (element : Element) (href : Option Text) (lang : Text) :
    (element.resource href lang).HasText := by
  intro hinline
  cases href with
  | none => exact ⟨element.content, rfl⟩
  | some reference => cases hinline

theorem Document.length_elements_le (document : Document) :
    document.elements.length ≤ document.text.length := by
  induction document with
  | rest body => exact Nat.zero_le _
  | broken before fault => exact Nat.zero_le _
  | cons before element after ih =>
      have helement : 1 ≤ element.text.length := by
        unfold Element.text
        simp only [List.cons_append, List.length_cons]
        omega
      simp only [elements, text, List.length_cons, List.length_append]
      omega

end Markup

/-- What is known about the parts of a template from the source that they were read from. -/
structure ParsedTemplate.ReadFrom (parsed : ParsedTemplate) (source : Text) : Prop where
  scripts_length : parsed.scripts.length ≤ source.length
  stylesheets_length : parsed.stylesheets.length ≤ source.length
  scripts_hasText : ∀ node ∈ parsed.scripts, node.HasText
  stylesheets_hasText : ∀ node ∈ parsed.stylesheets, node.HasText

theorem parseMarkup_eq_ok_iff {source : Text} {parsed : ParsedTemplate} :
    (parseMarkup source).result = .ok parsed ↔
      (Markup.Document.ofText source).fault? = none ∧
        parsed = (Markup.Document.ofText source).parts := by
  unfold parseMarkup Markup.Document.reading
  cases (Markup.Document.ofText source).fault? with
  | none => simp [eq_comm]
  | some fault => simp

theorem parseMarkup_eq_error_iff {source : Text} {fault : Markup.MarkupFault} :
    (parseMarkup source).result = .error fault ↔
      (Markup.Document.ofText source).fault? = some fault := by
  unfold parseMarkup Markup.Document.reading
  cases (Markup.Document.ofText source).fault? with
  | none => simp
  | some found => simp

theorem readFrom_of_parseMarkup {source : Text} {parsed : ParsedTemplate}
    (h : (parseMarkup source).result = .ok parsed) : parsed.ReadFrom source := by
  obtain ⟨hfault, rfl⟩ := parseMarkup_eq_ok_iff.mp h
  have hlength (kind : Markup.ElementKind) :
      ((Markup.Document.ofText source).elementsOf kind).length ≤ source.length := by
    calc
      ((Markup.Document.ofText source).elementsOf kind).length
          ≤ (Markup.Document.ofText source).elements.length := List.length_filter_le _ _
      _ ≤ (Markup.Document.ofText source).text.length := Markup.Document.length_elements_le _
      _ = source.length := by rw [Markup.Document.text_ofText source hfault]
  refine ⟨?_, ?_, ?_, ?_⟩
  · simpa [Markup.Document.parts] using hlength .script
  · simpa [Markup.Document.parts] using hlength .style
  · intro node hmem
    obtain ⟨element, -, rfl⟩ := List.mem_map.mp hmem
    exact element.hasText_resource _ _
  · intro node hmem
    obtain ⟨element, -, rfl⟩ := List.mem_map.mp hmem
    exact element.hasText_resource _ _

end ComponentLoader
