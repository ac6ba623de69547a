import ComponentLoader.Toml.Scalar
set_option autoImplicit false

/-!
# Dates wrapped in tables (SPEC §7.4)

Where only tables, arrays and plain scalars can be handed on, a date or time is wrapped: it becomes
a table whose key is `datetimeKey`, over the text of the date.  `Value.unwrap?` undoes this within a
value, and `tableOf?` wraps a date where a table is asked for.  The text of a wrapped date is that
of a date in a document, with nothing around it.
-/

namespace ComponentLoader.Toml

/-- The date, time or both that make up a whole text. -/
def Datetime.ofText? (text : Text) : Option Datetime :=
  match datetime? text with
  | some (value, []) => some value
  | _ => none

/-- The key of a wrapped date. -/
def datetimeKey : Text := "$__toml_private_datetime"

mutual

/-- The value with the dates in it unwrapped; none if what stands under the key of a date is not the
text of one.  A table is a wrapped date when its first key says so, whatever follows. -/
def Value.unwrap? : Value → Option Value
  | .array items => (unwrapItems? items).map .array
  | .table entries =>
    match entries with
    | [] => some (.table [])
    | (key, value) :: rest =>
      if key = datetimeKey then (value.text?.bind Datetime.ofText?).map .datetime
      else do
        let value ← value.unwrap?
        let rest ← unwrapEntries? rest
        return .table ((key, value) :: rest)
  | value => some value

/-- The items of an array, unwrapped. -/
def unwrapItems? : List Value → Option (List Value)
  | [] => some []
  | value :: rest => do
    let value ← value.unwrap?
    let rest ← unwrapItems? rest
    return value :: rest

/-- The entries of a table, unwrapped. -/
def unwrapEntries? : List (Text × Value) → Option (List (Text × Value))
  | [] => some []
  | (key, value) :: rest => do
    let value ← value.unwrap?
    let rest ← unwrapEntries? rest
    return (key, value) :: rest

end

/-- The table that a value holds, with the dates in it unwrapped; a date is a table with one
entry. -/
def tableOf? : Value → Option Table
  | .table entries => unwrapEntries? entries
  | .datetime value => some [(datetimeKey, .string value.text)]
  | _ => none

end ComponentLoader.Toml
