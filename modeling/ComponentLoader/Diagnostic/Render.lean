import ComponentLoader.Diagnostic.Basic
set_option autoImplicit false

/-!
# Rendering diagnostics (SPEC §7.2)

A diagnostic as people read it: a head line with severity, code and message, the place, the source
line with a caret below the column, and the notes.  The parts that are not known are left out.
-/

namespace ComponentLoader.Diagnostic

/-- A text between the control sequences that set and reset a colour. -/
def paint (color : Bool) (ansi text : Text) : Text :=
  if color then "\x1b[" ++ ansi ++ "m" ++ text ++ "\x1b[0m" else text

/-- Errors are shown in red and all else in yellow. -/
def ansi (severity : Severity) : Text :=
  match severity with
  | .error => "1;31"
  | _ => "1;33"

/-- Severity, code and message. -/
def head (color : Bool) (diagnostic : Diagnostic) : Text :=
  let label := diagnostic.severity.text ++ "[" ++ diagnostic.code.text ++ "]"
  paint color (ansi diagnostic.severity) label ++ ": " ++ diagnostic.message ++ "\n"

/-- The file, and the place in it. -/
def place (diagnostic : Diagnostic) : Text :=
  match diagnostic.file, diagnostic.location with
  | none, _ => []
  | some file, none => "  --> " ++ file.text ++ "\n"
  | some file, some location => "  --> " ++ file.text ++ ":" ++ location.text ++ "\n"

/-- A numbered source line with a caret below a column. -/
def excerpt (location : Location) (line : Text) : Text :=
  let number := Text.decimal (location.line + 1).toNat
  let margin := List.replicate number.length ' '
  margin ++ " |\n" ++ number ++ " | " ++ line ++ "\n" ++
    margin ++ " | " ++ List.replicate location.column.toNat ' ' ++ "^\n"

/-- The source line that a diagnostic is about, when both are known and the source has it. -/
def quoted (diagnostic : Diagnostic) (source : Option Text) : Text :=
  match diagnostic.location, source with
  | some location, some source =>
    match (Text.lines source)[location.line.toNat]? with
    | some line => excerpt location line
    | none => []
  | _, _ => []

/-- One line for each note. -/
def noteLines (diagnostic : Diagnostic) : Text :=
  diagnostic.notes.flatMap fun note => "   = note: " ++ note ++ "\n"

/-- A diagnostic as people read it, with the source line where the source is given. -/
def render (color : Bool) (diagnostic : Diagnostic) (source : Option Text) : Text :=
  head color diagnostic ++ place diagnostic ++ quoted diagnostic source ++ noteLines diagnostic

end ComponentLoader.Diagnostic
