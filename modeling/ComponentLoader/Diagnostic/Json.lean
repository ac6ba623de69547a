import ComponentLoader.Diagnostic.Basic
import ComponentLoader.Text.Literal
set_option autoImplicit false

/-!
# JSON reports (SPEC §6, §7.2)

The part of JSON that reports are made of, and its written form with two blanks for each level.
Empty lists and objects stay on one line.  A diagnostic is an object; a file and a location that are
not known and an empty list of notes are left out.
-/

namespace ComponentLoader

/-- A value of a report. -/
inductive Json where
  | text (value : Text)
  | number (value : Nat)
  | list (items : List Json)
  | object (fields : List (Text × Json))
  deriving Repr, Inhabited

namespace Json

/-- The blanks in front of a line. -/
def indent (depth : Nat) : Text :=
  List.replicate (2 * depth) ' '

mutual

/-- A value that begins within a line at some depth. -/
def pretty (depth : Nat) : Json → Text
  | .text value => Text.quote value
  | .number value => Text.decimal value
  | .list [] => "[]"
  | .list (item :: rest) =>
    "[\n" ++ indent (depth + 1) ++ item.pretty (depth + 1) ++ prettyItems (depth + 1) rest ++
      "\n" ++ indent depth ++ "]"
  | .object [] => "\x7b\x7d"
  | .object ((name, value) :: rest) =>
    "\x7b\n" ++ indent (depth + 1) ++ Text.quote name ++ ": " ++ value.pretty (depth + 1) ++
      prettyFields (depth + 1) rest ++ "\n" ++ indent depth ++ "\x7d"

/-- The items of a list after the first one. -/
def prettyItems (depth : Nat) : List Json → Text
  | [] => []
  | item :: rest => ",\n" ++ indent depth ++ item.pretty depth ++ prettyItems depth rest

/-- The fields of an object after the first one. -/
def prettyFields (depth : Nat) : List (Text × Json) → Text
  | [] => []
  | (name, value) :: rest =>
    ",\n" ++ indent depth ++ Text.quote name ++ ": " ++ value.pretty depth ++
      prettyFields depth rest

end

end Json

/-! ## Diagnostics -/

/-- The name of a category in a report. -/
def CodeCategory.reportName : CodeCategory → Text
  | error => "Error"
  | warning => "Warning"

/-- A place as an object. -/
def Location.toJson (location : Location) : Json :=
  .object [("line", .number location.line.toNat), ("column", .number location.column.toNat)]

/-- A diagnostic as an object. -/
def Diagnostic.toJson (diagnostic : Diagnostic) : Json :=
  let code := .object [
    ("category", .text diagnostic.code.category.reportName),
    ("number", .number diagnostic.code.number.toNat)]
  let file :=
    match diagnostic.file with
    | some file => [("file".toList, .text file.text)]
    | none => []
  let location :=
    match diagnostic.location with
    | some location => [("location".toList, location.toJson)]
    | none => []
  let notes :=
    if diagnostic.notes = [] then []
    else [("notes".toList, .list (diagnostic.notes.map .text))]
  .object ([("severity".toList, .text diagnostic.severity.text), ("code".toList, code),
    ("message".toList, .text diagnostic.message)] ++ file ++ location ++ notes)

end ComponentLoader
