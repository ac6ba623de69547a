import ComponentLoader.FilePath.Basic
import ComponentLoader.Text.Line
import ComponentLoader.Text.Literal
import ComponentLoader.Text.Space
set_option autoImplicit false

/-!
# Statements of a module (SPEC §4.4, §7.5)

The module of a template is a list of statements, each written on a line of its own.  Every text
that comes from a user stands in a string literal, so none of them can end its line or look like
another statement.

Which modules some code loads is found from its text alone: the literals of the lines that re-export
a module or load it for what it does.  A relative one is looked up from the directory of the file
that the code belongs to.
-/

namespace ComponentLoader

/-- A statement of the module of a template. -/
inductive Statement where
  /-- everything that a module exports is exported here too -/
  | reexport (id : Text)
  /-- a module is loaded for what it does -/
  | effect (id : Text)
  /-- a helper is taken from the file that exports it -/
  | helper (name file : Text)
  /-- the markup of the template -/
  | template (markup : Text)
  /-- the name of the component -/
  | componentName (name : Text)
  /-- the scope token of the template -/
  | scopeToken (token : Text)
  /-- the component is what the module is about -/
  | component
  deriving DecidableEq, Repr, Inhabited

namespace Statement

/-- What stands in front of the id in a re-export. -/
def reexportLead : Text := "export * from "

/-- What stands in front of the id of a module that is loaded for what it does. -/
def effectLead : Text := "import "

/-- A statement as it is written, without the line end. -/
def line : Statement → Text
  | reexport id => reexportLead ++ Text.quote id ++ ";"
  | effect id => effectLead ++ Text.quote id ++ ";"
  | helper name file => "import \x7b " ++ name ++ " \x7d from " ++ Text.quote file ++ ";"
  | template markup => "const template = " ++ Text.quote markup ++ ";"
  | componentName name => "export const name = " ++ Text.quote name ++ ";"
  | scopeToken token => "export const scope = " ++ Text.quote token ++ ";"
  | component => "export default \x7b name, scope, template \x7d;"

/-- Some statements as they are written. -/
def code (statements : List Statement) : Text :=
  statements.flatMap fun statement => statement.line ++ ['\n']

@[simp]
theorem code_nil : code [] = [] := rfl

@[simp]
theorem code_cons (statement : Statement) (rest : List Statement) :
    code (statement :: rest) = statement.line ++ '\n' :: code rest := by
  simp [code]

@[simp]
theorem code_append (a b : List Statement) : code (a ++ b) = code a ++ code b := by
  simp [code]

end Statement

/-! ## Reading a header -/

namespace Header

/-- What a line has after the front of a statement that loads a module. -/
def loadedPart? (line : Text) : Option Text :=
  (Text.dropLead? Statement.effectLead line).or (Text.dropLead? Statement.reexportLead line)

/-- The id of the module that a line loads. -/
def specifier? (line : Text) : Option Text := do
  let rest ← loadedPart? line
  Text.unquote? (← Text.dropTail? ";" (Text.trimEnd rest))

/-- The ids of the modules that some code loads, in order. -/
def specifiers (code : Text) : List Text :=
  (Text.lines code).filterMap specifier?

/-- A path as seen from the directory of a file. -/
def resolvePath (file : FilePath) (path : Text) : Text :=
  if (FilePath.mk path).isAbsolute then path
  else (FilePath.normalize (file.directory.join ⟨path⟩)).text

/-- An id that stands in the code of a file, as it is asked for; its query stays as it is. -/
def resolve (file : FilePath) (specifier : Text) : Text :=
  match Text.cut '?' specifier with
  | none => resolvePath file specifier
  | some (path, query) => resolvePath file path ++ '?' :: query

end Header

end ComponentLoader
