import ComponentLoader.Text.Identifier
set_option autoImplicit false

/-!
# Exports of a script (SPEC §4.4)

The names that a script exports, found without parsing it: a line that begins with the keyword
`export` starts an export, which may go on over further lines.  Lists of names, re-exports under a
name, functions and variables are understood; default exports, classes and types export no name
here.
-/

namespace ComponentLoader

/-- A way to find the names that a script exports. -/
abbrev ExportReader : Type :=
  (script : Text) → List Text

namespace Exports

/-! ## Lists of names -/

/-- The name under which an item of an export list is known outside. -/
def listedName? (item : Text) : Option Text :=
  let item := Text.trim item
  Text.identifier? (((Text.afterLast? " as " item).map Text.trim).getD item)

/-- The names in the list after its opening brace, if the list ends. -/
def listedNames (text : Text) : List Text :=
  match Text.cut '}' text with
  | none => []
  | some (list, _) => (Text.splitOn ',' list).filterMap listedName?

/-! ## Declared names -/

/-- A text without any number of `...` at its front. -/
def dropDots : Text → Text
  | '.' :: '.' :: '.' :: rest => dropDots rest
  | text => text

/-- What follows the first colon, or all of a text without one. -/
def afterColon (text : Text) : Text :=
  match Text.cut ':' text with
  | some (_, after) => after
  | none => text

/-- The variable that an item of a pattern binds. -/
def boundName? (item : Text) : Option Text :=
  Text.identifier? (Text.trim (Text.upTo '=' (afterColon (dropDots (Text.trim item)))))

/-- The variables that a pattern binds, its opening bracket left out and `close` ending it. -/
def boundNames (close : Char) (text : Text) : List Text :=
  match Text.cut close text with
  | none => []
  | some (items, _) => (Text.splitOn ',' items).filterMap boundName?

/-- The variables that a declaration binds, after its keyword. -/
def declaredNames : Text → List Text
  | '{' :: rest => boundNames '}' rest
  | '[' :: rest => boundNames ']' rest
  | text => (Text.identifier? text).toList

/-- What follows one of the keywords of variables. -/
def afterVariableKeyword? (text : Text) : Option Text :=
  (Text.afterKeyword? "const" text).or
    ((Text.afterKeyword? "let" text).or (Text.afterKeyword? "var" text))

/-! ## Exports -/

/-- The names after the keyword `function`, of which there is at most one. -/
def functionNames (text : Text) : List Text :=
  (Text.identifier? (Text.trimStart ((Text.dropLead? "*" text).getD text))).toList

/-- The names that a text exports when the keyword `export` stands in front of it. -/
def namesAfter (text : Text) : List Text :=
  match Text.trimStart text with
  | '{' :: rest => listedNames rest
  | '*' :: rest => ((Text.afterKeyword? "as" (Text.trimStart rest)).bind Text.identifier?).toList
  | text =>
    match Text.afterKeyword? "function" ((Text.afterKeyword? "async" text).getD text) with
    | some rest => functionNames rest
    | none => ((afterVariableKeyword? text).map declaredNames).getD []

/-- Whether a text begins a line with an export. -/
def startsExport (text : Text) : Bool :=
  (Text.afterKeyword? "export" (Text.trimStart text)).isSome

/-- What each export of a script is followed by.  `atStart` says whether a line begins here. -/
def exportTails (atStart : Bool) : Text → List Text
  | [] => []
  | c :: rest =>
    let here :=
      if atStart && startsExport (Text.upTo '\n' (c :: rest)) then
        [(Text.trimStart (c :: rest)).drop "export".toList.length]
      else []
    here ++ exportTails (c = '\n') rest

/-- The names in order, each once. -/
def distinct (names : List Text) : List Text :=
  names.foldl (fun seen name => if seen.contains name then seen else seen ++ [name]) []

end Exports

/-- The names that a script exports, in the order of their first export. -/
def exportNames : ExportReader := fun script =>
  Exports.distinct ((Exports.exportTails true script).flatMap Exports.namesAfter)

end ComponentLoader
