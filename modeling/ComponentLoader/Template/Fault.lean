import ComponentLoader.FileTree.Basic
import ComponentLoader.Markup.Element
import ComponentLoader.Text.Line
set_option autoImplicit false

/-!
# Faults of templates (SPEC §4.4, §7.1)

Why a template, or a helper file beside it, gives no module.
-/

namespace ComponentLoader

/-- Why no code is written for a template. -/
inductive GenerateFault where
  /-- modules of this format are not written -/
  | unsupportedFormat (format : Text)
  deriving DecidableEq, Repr, Inhabited

/-- The wording of a fault. -/
def GenerateFault.message : GenerateFault → Text
  | unsupportedFormat format => "unsupported module format '" ++ format ++ "'"

/-- Why a template gives no module. -/
inductive TemplateError where
  | unreadable (path : FilePath) (fault : IoFault)
  /-- the source cannot be parsed; the location is that of the fault, where positions reach it -/
  | parse (file : FilePath) (location : Option Location) (fault : Markup.MarkupFault)
  | generate (file : FilePath) (fault : GenerateFault)
  deriving DecidableEq, Repr, Inhabited

namespace TemplateError

/-- The error of a source that cannot be parsed. -/
def ofMarkup (file : FilePath) (source : Text) (fault : Markup.MarkupFault) : TemplateError :=
  parse file (source.locate fault.offset) fault

/-- A file, and the place in it where that is known. -/
def placeText (file : FilePath) : Option Location → Text
  | none => file.text
  | some location => file.text ++ ":" ++ location.text

/-- The wording of an error. -/
def message : TemplateError → Text
  | unreadable path fault => "cannot read " ++ path.text ++ ": " ++ fault.message
  | parse file location fault => placeText file location ++ ": " ++ fault.message
  | generate file fault => file.text ++ ": code generation failed: " ++ fault.message

end TemplateError

end ComponentLoader
