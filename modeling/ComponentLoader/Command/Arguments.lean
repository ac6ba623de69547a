import ComponentLoader.FilePath.Basic
set_option autoImplicit false

/-!
# Command lines (SPEC §7.5)

A command line is the name of a task with its operands, and switches.  A switch has a long name
after two dashes, and some have a letter after one; letters may be put together.  The value of a
switch follows an equals sign, or stands in the next argument unless that looks like a switch; after
a letter it may follow at once.  After `--` all arguments are operands.

Switches of the whole program may stand before or after the name of the task, the others after it.
No switch may be given twice in one of these places, and what stands after the name counts.
-/

namespace ComponentLoader.Command

/-! ## Switches -/

/-- The switches of all tasks. -/
inductive Switch where
  | quiet
  | verbose
  | color
  | config
  | root
  | version
  | format
  | passes
  | cold
  deriving DecidableEq, Repr, Inhabited

namespace Switch

/-- The name after two dashes. -/
def long : Switch → Text
  | quiet => "quiet"
  | verbose => "verbose"
  | color => "color"
  | config => "config"
  | root => "root"
  | version => "version"
  | format => "format"
  | passes => "passes"
  | cold => "cold"

/-- The letter after one dash. -/
def letter? : Switch → Option Char
  | quiet => some 'q'
  | verbose => some 'v'
  | version => some 'V'
  | format => some 'f'
  | _ => none

/-- Whether a switch has a value. -/
def takesValue : Switch → Bool
  | color => true
  | config => true
  | root => true
  | format => true
  | passes => true
  | _ => false

/-- The switches that count for every task. -/
def global : List Switch := [quiet, verbose, color, config, root]

end Switch

/-! ## Values -/

/-- When output is coloured. -/
inductive ColorChoice where
  | auto
  | always
  | never
  deriving DecidableEq, Repr, Inhabited

/-- The form in which loaded modules are reported. -/
inductive ReportFormat where
  | text
  | json
  deriving DecidableEq, Repr, Inhabited

/-- The choice with a name. -/
def ColorChoice.ofName? (name : Text) : Option ColorChoice :=
  if name = "auto".toList then some .auto
  else if name = "always".toList then some .always
  else if name = "never".toList then some .never
  else none

/-- The format with a name. -/
def ReportFormat.ofName? (name : Text) : Option ReportFormat :=
  if name = "text".toList then some .text
  else if name = "json".toList then some .json
  else none

/-- The greatest number of passes. -/
def passLimit : Nat := UInt32.size - 1

/-- A number of passes, at least one, with a plus sign allowed in front. -/
def passes? (value : Text) : Option Nat :=
  (Text.readDecimal? ((Text.dropLead? "+" value).getD value)).filter fun n =>
    decide (1 ≤ n ∧ n ≤ passLimit)

/-- Whether a switch can have a value. -/
def accepts (switch : Switch) (value : Text) : Bool :=
  match switch with
  | .color => (ColorChoice.ofName? value).isSome
  | .format => (ReportFormat.ofName? value).isSome
  | .passes => (passes? value).isSome
  | _ => true

/-! ## Reading switches -/

/-- Why a command line gives no task. -/
inductive Refusal where
  /-- it is not understood -/
  | usage
  /-- it asks for the version -/
  | version
  deriving DecidableEq, Repr, Inhabited

/-- The switches that were given, each with its value, which is empty for one that has none. -/
abbrev Given : Type := List (Switch × Text)

/-- The switches after one more. -/
def give (given : Given) (switch : Switch) (value : Text) : Except Refusal Given :=
  if (given.lookup switch).isSome then .error .usage
  else if switch = .version then .error .version
  else if accepts switch value then .ok ((switch, value) :: given)
  else .error .usage

/-- Whether an argument looks like a switch. -/
def isSwitchLike (argument : Text) : Bool :=
  match argument with
  | '-' :: _ :: _ => true
  | _ => false

/-- The switches after one whose value is the next argument, which is used then. -/
def giveNext (given : Given) (switch : Switch) (next : Option Text) :
    Except Refusal (Given × Bool) :=
  match next with
  | none => .error .usage
  | some value =>
    if isSwitchLike value then .error .usage else (give given switch value).map fun g => (g, true)

/-- The switches after a long one, its dashes left out, and whether the next argument is used. -/
def giveLong (known : List Switch) (given : Given) (next : Option Text) (body : Text) :
    Except Refusal (Given × Bool) :=
  let (name, value?) :=
    match Text.cut '=' body with
    | some (name, value) => (name, some value)
    | none => (body, none)
  match known.find? fun switch => switch.long = name with
  | none => .error .usage
  | some switch =>
    match switch.takesValue, value? with
    | true, some value => (give given switch value).map fun g => (g, false)
    | true, none => giveNext given switch next
    | false, none => (give given switch []).map fun g => (g, false)
    | false, some _ => .error .usage

/-- The switches after the letters of an argument, and whether the next argument is used. -/
def giveLetters (known : List Switch) (given : Given) (next : Option Text) :
    Text → Except Refusal (Given × Bool)
  | [] => .ok (given, false)
  | c :: rest =>
    match known.find? fun switch => switch.letter? = some c with
    | none => .error .usage
    | some switch =>
      if switch.takesValue then
        match rest with
        | [] => giveNext given switch next
        | '=' :: value => (give given switch value).map fun g => (g, false)
        | value => (give given switch value).map fun g => (g, false)
      else
        match give given switch [] with
        | .error refusal => .error refusal
        | .ok given => giveLetters known given next rest

/-- The switches after an argument that looks like a switch, and whether the next argument is
used. -/
def giveArgument (known : List Switch) (given : Given) (next : Option Text) (argument : Text) :
    Except Refusal (Given × Bool) :=
  match argument with
  | '-' :: '-' :: body => giveLong known given next body
  | _ :: letters => giveLetters known given next letters
  | [] => .error .usage

/-! ## Reading operands -/

/-- The arguments after a switch, the first of which may be used as its value. -/
def unused (used : Bool) (rest : List Text) : List Text :=
  if used then rest.tail else rest

theorem length_unused_le (used : Bool) (rest : List Text) :
    (unused used rest).length ≤ rest.length := by
  cases used <;> simp [unused]

/-- The switches and operands of a task. -/
def readTask (known : List Switch) (given : Given) (operands : List Text) :
    List Text → Except Refusal (Given × List Text)
  | [] => .ok (given, operands)
  | argument :: rest =>
    if argument = "--".toList then .ok (given, operands ++ rest)
    else if isSwitchLike argument then
      match giveArgument known given rest.head? argument with
      | .error refusal => .error refusal
      | .ok (given, used) => readTask known given operands (unused used rest)
    else readTask known given (operands ++ [argument]) rest
termination_by arguments => arguments.length
decreasing_by
  · exact Nat.lt_succ_of_le (length_unused_le _ _)
  · simp

/-- What all tasks share. -/
structure Globals where
  quiet : Bool
  color : ColorChoice
  config : Option FilePath
  root : Option FilePath
  deriving Repr, Inhabited

/-- What is to be done. -/
inductive Task where
  /-- load modules by their ids and report them -/
  | load (ids : List Text) (format : ReportFormat)
  /-- build templates, possibly in several passes -/
  | build (files : List Text) (passes : Nat) (cold : Bool)
  deriving Repr, Inhabited

/-- What a command line says. -/
structure Invocation where
  globals : Globals
  task : Task
  deriving Repr, Inhabited

/-- What the switches say to all tasks. -/
def globalsOf (given : Given) : Globals where
  quiet := (given.lookup .quiet).isSome
  color := ((given.lookup .color).bind ColorChoice.ofName?).getD .auto
  config := (given.lookup .config).map FilePath.mk
  root := (given.lookup .root).map FilePath.mk

/-- The task with a name, its own switches, and what it makes of them and of its operands. -/
def task? (name : Text) : Option (List Switch × (Given → List Text → Task)) :=
  if name = "load".toList then
    some ([.format], fun given ids =>
      .load ids (((given.lookup .format).bind ReportFormat.ofName?).getD .text))
  else if name = "build".toList then
    some ([.passes, .cold], fun given files =>
      .build files (((given.lookup .passes).bind passes?).getD 1) (given.lookup .cold).isSome)
  else none

/-- What a command line says after the switches in front of it. -/
def readFrom (given : Given) : List Text → Except Refusal Invocation
  | [] => .error .usage
  | argument :: rest =>
    if argument = "--".toList then .error .usage
    else if isSwitchLike argument then
      match giveArgument (.version :: Switch.global) given rest.head? argument with
      | .error refusal => .error refusal
      | .ok (given, used) => readFrom given (unused used rest)
    else
      match task? argument with
      | none => .error .usage
      | some (switches, task) =>
        match readTask (switches ++ Switch.global) [] [] rest with
        | .error refusal => .error refusal
        | .ok (own, operands) =>
          if operands = [] then .error .usage
          else .ok ⟨globalsOf (own ++ given), task own operands⟩
termination_by arguments => arguments.length
decreasing_by exact Nat.lt_succ_of_le (length_unused_le _ _)

/-- What a command line says. -/
def Invocation.read (arguments : List Text) : Except Refusal Invocation :=
  readFrom [] arguments

end ComponentLoader.Command
