import ComponentLoader.FilePath.Basic
import ComponentLoader.Text.Line
set_option autoImplicit false

/-!
# Diagnostics (SPEC §7.2)

What a load has to say beside its result: a message with a severity and a code, and where known the
file, the place in it and further notes.  A `DiagnosticSink` holds diagnostics that belong to no
single result until somebody takes them.
-/

namespace ComponentLoader

/-- How serious a diagnostic is. -/
inductive Severity where
  | note
  | warning
  | error
  deriving DecidableEq, Repr, Inhabited

/-- The name of a severity. -/
def Severity.text : Severity → Text
  | note => "note"
  | warning => "warning"
  | error => "error"

/-- The two kinds of diagnostic codes. -/
inductive CodeCategory where
  | error
  | warning
  deriving DecidableEq, Repr, Inhabited

/-- The letter in front of the codes of a category. -/
def CodeCategory.letter : CodeCategory → Char
  | error => 'E'
  | warning => 'W'

/-- A diagnostic code. -/
structure DiagnosticCode where
  category : CodeCategory
  number : UInt16
  deriving DecidableEq, Repr, Inhabited

namespace DiagnosticCode

/-- A template uses something that is discouraged. -/
def templateWarning : DiagnosticCode := ⟨.warning, 1⟩

/-- A request addresses no inline resource. -/
def missingSubResource : DiagnosticCode := ⟨.warning, 2⟩

/-- A helper name is exported by two helper files. -/
def duplicateHelper : DiagnosticCode := ⟨.warning, 3⟩

/-- A module could not be loaded. -/
def loadFailed : DiagnosticCode := ⟨.error, 1⟩

/-- The letter of the category and the number in at least three digits. -/
def text (code : DiagnosticCode) : Text :=
  let digits := Text.decimal code.number.toNat
  code.category.letter :: (List.replicate (3 - digits.length) '0' ++ digits)

end DiagnosticCode

/-- One thing to report. -/
structure Diagnostic where
  severity : Severity
  code : DiagnosticCode
  message : Text
  file : Option FilePath := none
  location : Option Location := none
  notes : List Text := []
  deriving DecidableEq, Repr, Inhabited

/-- The diagnostics that wait to be taken, the oldest first. -/
structure DiagnosticSink where
  held : List Diagnostic
  deriving DecidableEq, Repr, Inhabited

namespace DiagnosticSink

/-- Nothing waits. -/
def empty : DiagnosticSink := ⟨[]⟩

/-- The sink with one more diagnostic. -/
def emit (sink : DiagnosticSink) (diagnostic : Diagnostic) : DiagnosticSink :=
  ⟨sink.held ++ [diagnostic]⟩

/-- The sink with some more diagnostics. -/
def emitAll (sink : DiagnosticSink) (diagnostics : List Diagnostic) : DiagnosticSink :=
  diagnostics.foldl emit sink

@[simp]
theorem held_emitAll (sink : DiagnosticSink) (diagnostics : List Diagnostic) :
    (sink.emitAll diagnostics).held = sink.held ++ diagnostics := by
  induction diagnostics generalizing sink with
  | nil => simp [emitAll]
  | cons d rest ih =>
    have := ih (sink.emit d)
    simp only [emitAll, List.foldl_cons] at this ⊢
    simpa [emit] using this

end DiagnosticSink

end ComponentLoader
