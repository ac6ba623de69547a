import ComponentLoader.FilePath.Basic
import ComponentLoader.Markup.Attribute
import ComponentLoader.Markup.Element
set_option autoImplicit false

/-!
# Resources of a template (SPEC §3, §4.4)

What a style or script element says: where its text is, either here or in another file, and in which
language it is written.  Attributes that were given up are still understood, with a warning at the
place where they stand.
-/

namespace ComponentLoader

/-- A script or a stylesheet as a template names it. -/
structure ResourceNode where
  /-- where the text is, for a resource outside the template -/
  href : Option Text
  /-- the text, for a resource inside the template -/
  content : Option Text
  lang : Text
  deriving DecidableEq, Repr, Inhabited

/-- Whether a resource is inside the template. -/
def ResourceNode.isInline (node : ResourceNode) : Bool :=
  node.href.isNone

/-- Something in a template that is discouraged, and its byte offset. -/
structure TemplateWarning where
  message : Text
  offset : Nat
  deriving DecidableEq, Repr, Inhabited

namespace Markup

/-- The extension of a reference, in lower case. -/
def extensionOf? (href : Text) : Option Text :=
  FilePath.kind? ⟨href⟩

/-- The language of a stylesheet of which nothing else is known. -/
def defaultStyleLang : Text := "css"

/-- The language of a script of which nothing else is known. -/
def defaultScriptLang : Text := "js"

/-- The language that a media type stands for. -/
def langOfType? (mediaType : Text) : Option Text :=
  if mediaType = "ts".toList ∨ mediaType = "text/typescript".toList ∨
      mediaType = "application/typescript".toList then
    some "ts"
  else none

/-- Whether an extension is that of a typed script. -/
def isTypedScript (extension : Text) : Bool :=
  extension = "ts".toList || extension = "tsx".toList

namespace Element

/-- The attributes of an element. -/
def attributes (element : Element) : List Attribute :=
  Markup.attributes element.attributeOffset element.attributeText

/-- A resource with its text inside the element, unless there is a reference. -/
def resource (element : Element) (href : Option Text) (lang : Text) : ResourceNode where
  href := href
  content := if href.isNone then some element.content else none
  lang := lang

/-- The stylesheet that an element is. -/
def stylesheet (element : Element) : ResourceNode :=
  let given := element.attributes
  let href := (valueOf? given "href").or (valueOf? given "src")
  let lang := (valueOf? given "lang").or (href.bind extensionOf?)
  element.resource href (lang.getD defaultStyleLang)

/-- The script that an element is. -/
def script (element : Element) : ResourceNode :=
  let given := element.attributes
  let href := valueOf? given "src"
  let lang :=
    ((valueOf? given "lang").or ((valueOf? given "type").bind langOfType?)).or
      ((href.bind extensionOf?).filter isTypedScript)
  element.resource href (lang.getD defaultScriptLang)

/-- The attribute that was given up for a kind of elements. -/
def discouraged : ElementKind → Text
  | .style => "scoped"
  | .script => "language"

/-- What there is to say about the attribute that was given up. -/
def advice : ElementKind → Text
  | .style => "the `scoped` attribute is deprecated; component styles are always scoped"
  | .script => "the `language` attribute is deprecated; use `lang`"

/-- The warning about an element, if it has the attribute that was given up. -/
def warning? (element : Element) : Option TemplateWarning :=
  (findAttribute? element.attributes (discouraged element.kind)).map fun a =>
    ⟨advice element.kind, a.offset⟩

end Element

end Markup

end ComponentLoader
