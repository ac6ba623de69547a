import ComponentLoader.Markup.Resource
set_option autoImplicit false

/-!
# Parsed templates (SPEC §4.4)

A template in its three parts: stylesheets, scripts, and the markup that is left when their elements
are taken out.  A `TemplateParser` reads a source; its warnings count also where it then fails.
-/

namespace ComponentLoader

/-- The parts of a template, each list in the order of the source. -/
structure ParsedTemplate where
  stylesheets : List ResourceNode := []
  scripts : List ResourceNode := []
  body : Text
  deriving DecidableEq, Repr, Inhabited

/-- What reading a source gives. -/
structure TemplateReading where
  /-- what is discouraged, in the order in which it was met -/
  warnings : List TemplateWarning
  result : Except Markup.MarkupFault ParsedTemplate
  deriving Repr

/-- A way to read the source of a template. -/
abbrev TemplateParser : Type :=
  (source : Text) → TemplateReading

namespace Markup.Document

/-- The elements of a kind, in order. -/
def elementsOf (kind : ElementKind) (document : Document) : List Element :=
  document.elements.filter fun element => element.kind = kind

/-- The warnings about the elements of a document. -/
def warnings (document : Document) : List TemplateWarning :=
  document.elements.filterMap Element.warning?

/-- The parts of a document that is not broken. -/
def parts (document : Document) : ParsedTemplate where
  stylesheets := (document.elementsOf .style).map Element.stylesheet
  scripts := (document.elementsOf .script).map Element.script
  body := document.body

/-- What a document gives. -/
def reading (document : Document) : TemplateReading where
  warnings := document.warnings
  result :=
    match document.fault? with
    | some fault => .error fault
    | none => .ok document.parts

end Markup.Document

/-- The parser of markup with style and script elements. -/
def parseMarkup : TemplateParser := fun source =>
  (Markup.Document.ofText source).reading

end ComponentLoader
