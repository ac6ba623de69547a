import ComponentLoader.Number.Binary64
set_option autoImplicit false

/-!
# TOML values (SPEC §7.4)

The values of a TOML document: the four kinds of scalars, dates and times, arrays, and tables as
lists of keys with their values.
-/

namespace ComponentLoader.Toml

/-! ## Dates and times -/

/-- A day of the calendar. -/
structure Date where
  year : Nat
  month : Nat
  day : Nat
  deriving DecidableEq, Repr, Inhabited

/-- A time of day. -/
structure Time where
  hour : Nat
  minute : Nat
  second : Nat
  nanosecond : Nat
  deriving DecidableEq, Repr, Inhabited

/-- The distance of a local time from universal time. -/
inductive Offset where
  | universal
  | minutes (value : Int)
  deriving DecidableEq, Repr, Inhabited

/-- A date, a time, or both, then possibly with an offset. -/
structure Datetime where
  date : Option Date
  time : Option Time
  offset : Option Offset
  deriving DecidableEq, Repr, Inhabited

/-- A number in at least `width` digits. -/
def padded (width n : Nat) : Text :=
  let digits := Text.decimal n
  List.replicate (width - digits.length) '0' ++ digits

/-- Year, month and day between dashes. -/
def Date.text (date : Date) : Text :=
  padded 4 date.year ++ "-" ++ padded 2 date.month ++ "-" ++ padded 2 date.day

/-- Hour, minute and second between colons, and the fraction of a second unless it is zero. -/
def Time.text (time : Time) : Text :=
  let fraction : Text :=
    if time.nanosecond = 0 then []
    else '.' :: ((padded 9 time.nanosecond).reverse.dropWhile (· = '0')).reverse
  padded 2 time.hour ++ ":" ++ padded 2 time.minute ++ ":" ++ padded 2 time.second ++ fraction

/-- `Z`, or a sign with hours and minutes. -/
def Offset.text : Offset → Text
  | universal => "Z"
  | minutes value =>
    let sign := if value < 0 then '-' else '+'
    sign :: (padded 2 (value.natAbs / 60) ++ ":" ++ padded 2 (value.natAbs % 60))

/-- The text of a date or time, with `T` between the two. -/
def Datetime.text (value : Datetime) : Text :=
  let date := (value.date.map Date.text).getD []
  let between : Text := if value.date.isSome && value.time.isSome then ['T'] else []
  let time := (value.time.map Time.text).getD []
  date ++ between ++ time ++ (value.offset.map Offset.text).getD []

/-! ## Values -/

/-- A value of a document. -/
inductive Value where
  | string (text : Text)
  | integer (value : Int)
  | float (value : Binary64)
  | boolean (value : Bool)
  | datetime (value : Datetime)
  | array (items : List Value)
  | table (entries : List (Text × Value))
  deriving Repr, Inhabited

/-- A table: its keys in the order of the document, each with its value. -/
abbrev Table : Type := List (Text × Value)

/-- The text of a string value. -/
def Value.text? : Value → Option Text
  | string text => some text
  | _ => none

/-- The value of a boolean value. -/
def Value.bool? : Value → Option Bool
  | boolean value => some value
  | _ => none

/-- The items of an array of strings. -/
def Value.texts? : Value → Option (List Text)
  | array items => items.mapM Value.text?
  | _ => none

end ComponentLoader.Toml
