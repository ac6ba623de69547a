import ComponentLoader.Module.Id
import ComponentLoader.Settings.Basic
set_option autoImplicit false

/-!
# Requests (SPEC §4.5)

What an id asks for is decided by the extension of its path and by its part: a template, one of the
inline resources of a template, or a stylesheet.  Every other file is none of our business.
-/

namespace ComponentLoader

/-- What an id asks for. -/
inductive Request where
  | template
  | inlineScript (index : UInt64)
  | inlineStyle (scope : Option Text) (index : Option UInt64)
  | stylesheet (scope : Option Text)
  deriving DecidableEq, Repr, Inhabited

/-- What a part of a template is asked for by. -/
def ModulePart.request : ModulePart → Request
  | script index => .inlineScript index
  | stylesheet scope index => .inlineStyle scope index

/-- The scope token in a part. -/
def ModulePart.scope? : ModulePart → Option Text
  | script _ => none
  | stylesheet scope _ => scope

/-- What an id asks for, if it is one of ours. -/
def Request.classify (settings : Settings) (id : ModuleId) : Option Request :=
  match id.path.kind? with
  | none => none
  | some extension =>
    if settings.isTemplateExtension extension then
      match id.part with
      | none => some .template
      | some part => some part.request
    else if isStylesheetExtension extension then
      some (.stylesheet (id.part.bind ModulePart.scope?))
    else none

/-- Whether a path can be part of an id that asks for something. -/
def Settings.handles (settings : Settings) (path : FilePath) : Bool :=
  match path.kind? with
  | some extension => settings.isTemplateExtension extension || isStylesheetExtension extension
  | none => false

end ComponentLoader
