import ComponentLoader.Toml.Scalar
set_option autoImplicit false

/-!
# TOML documents (SPEC §7.4)

Arrays and inline tables are read by recursion on the depth that is left, since a document may nest
them only so far.  A document is read line by line: a header chooses the table that the key lines
after it fill.  A table is defined once: `Origin` records how it came to be, so that a second
definition is noticed, whether it is made by a header, by a key with dots or by an inline table.
-/

namespace ComponentLoader.Toml

/-! ## Arrays and inline tables -/

/-- One more than the number of levels that values may nest, and than the parts of a key. -/
def depthLimit : Nat := 80

/-- How a table came to be. -/
inductive Origin where
  /-- by its own header, or as the document itself -/
  | header
  /-- because the header of a table below it was read -/
  | implied
  /-- because a key with dots leads through it -/
  | dotted
  deriving DecidableEq, Repr, Inhabited

/-- What a key of a table under construction leads to. -/
inductive Entry where
  | value (value : Value)
  | table (origin : Origin) (entries : List (Text × Entry))
  | tables (items : List (List (Text × Entry)))
  deriving Repr, Inhabited

/-- The entries of a table under construction. -/
abbrev Entries : Type := List (Text × Entry)

mutual

/-- The value of a finished entry. -/
def Entry.toValue : Entry → Value
  | .value value => value
  | .table _ entries => .table (entriesToTable entries)
  | .tables items => .array (itemsToValues items)

/-- The table of finished entries. -/
def entriesToTable : List (Text × Entry) → List (Text × Value)
  | [] => []
  | (key, entry) :: rest => (key, entry.toValue) :: entriesToTable rest

/-- The values of finished tables. -/
def itemsToValues : List (List (Text × Entry)) → List Value
  | [] => []
  | entries :: rest => .table (entriesToTable entries) :: itemsToValues rest

end

/-- The entries with one of them replaced or put at the end. -/
def setEntry (key : Text) (entry : Entry) (entries : Entries) : Entries :=
  if entries.any (·.1 = key) then
    entries.map fun (k, old) => if k = key then (k, entry) else (k, old)
  else entries ++ [(key, entry)]

/-- Puts a key line into a table.  A key with dots leads from there into other tables: none of them
may have its own header, and the last one has to be a table that keys with dots made.  Of an array
of tables the last one is meant. -/
def putKey (reached : Origin) : (path : List Text) → Text → Value → Entries → Option Entries
  | [], key, value, entries =>
    match entries.lookup key with
    | none => if reached = .implied then none else some (entries ++ [(key, .value value)])
    | some _ => none
  | part :: path, key, value, entries =>
    match entries.lookup part with
    | none => (putKey .dotted path key value []).map fun inner =>
        entries ++ [(part, .table .dotted inner)]
    | some (.table .header _) => none
    | some (.table origin inner) => (putKey origin path key value inner).map fun inner =>
        setEntry part (.table origin inner) entries
    | some (.tables items) =>
      match items.reverse with
      | [] => none
      | last :: before => (putKey .implied path key value last).map fun last =>
          setEntry part (.tables (before.reverse ++ [last])) entries
    | some (.value _) => none

/-- The table that the pairs of an inline table make up. -/
def inlineTable? (pairs : List (List Text × Value)) : Option Value := do
  let entries ← pairs.foldlM (fun entries (path, value) =>
    match path.reverse with
    | [] => none
    | key :: before => putKey .header before.reverse key value entries) []
  return .table (entriesToTable entries)

/-- The items of an array after its opening bracket, and the text after the closing one; at most `n`
items. -/
def items? (value? : Reader Value) : (n : Nat) → Reader (List Value)
  | 0, _ => none
  | n + 1, text =>
    match skipLayout text.length text with
    | ']' :: rest => some ([], rest)
    | text =>
      match value? text with
      | none => none
      | some (value, rest) =>
        match skipLayout rest.length rest with
        | ']' :: rest => some ([value], rest)
        | ',' :: rest => (items? value? n rest).map fun (values, rest) => (value :: values, rest)
        | _ => none

/-- A key and its value around an equals sign. -/
def pair? (value? : Reader Value) (text : Text) : Option ((List Text × Value) × Text) := do
  let (key, text) ← key? (depthLimit - 1) text
  let text ← after? '=' text
  let (value, text) ← value? (skipBlanks text)
  return ((key, value), text)

/-- The pairs of an inline table, of which there is at least one, and the text after the closing
brace; at most `n` pairs. -/
def pairs? (value? : Reader Value) : (n : Nat) → Reader (List (List Text × Value))
  | 0, _ => none
  | n + 1, text =>
    match pair? value? text with
    | none => none
    | some (pair, rest) =>
      match skipBlanks rest with
      | '}' :: rest => some ([pair], rest)
      | ',' :: rest => (pairs? value? n rest).map fun (pairs, rest) => (pair :: pairs, rest)
      | _ => none

/-- A value that nests at most `depth` levels. -/
def value? : (depth : Nat) → Reader Value
  | 0, text => scalarValue? text
  | depth + 1, text =>
    match text with
    | '[' :: rest =>
      (items? (value? depth) (rest.length + 1) rest).map fun (values, rest) => (.array values, rest)
    | '{' :: rest =>
      match skipBlanks rest with
      | '}' :: rest => some (.table [], rest)
      | _ =>
        (pairs? (value? depth) (rest.length + 1) rest).bind fun (pairs, rest) =>
          (inlineTable? pairs).map (·, rest)
    | text => scalarValue? text

/-! ## Headers -/

/-- Changes the table that the parts of a header lead to.  Tables on the way that are missing are
implied; of an array of tables the last one is meant. -/
def descend (change : Origin → Entries → Option (Origin × Entries)) :
    (path : List Text) → Origin → Entries → Option (Origin × Entries)
  | [], origin, entries => change origin entries
  | part :: path, origin, entries =>
    match entries.lookup part with
    | none => (descend change path .implied []).map fun (inner, below) =>
        (origin, entries ++ [(part, .table inner below)])
    | some (.table inner below) => (descend change path inner below).map fun (inner, below) =>
        (origin, setEntry part (.table inner below) entries)
    | some (.tables items) =>
      match items.reverse with
      | [] => none
      | last :: before => (descend change path .header last).map fun (_, last) =>
          (origin, setEntry part (.tables (before.reverse ++ [last])) entries)
    | some (.value _) => none

/-- Opens the table of a header in the table above it.  A table that was implied takes its place in
the order of the document only now. -/
def openTable (key : Text) (origin : Origin) (entries : Entries) : Option (Origin × Entries) :=
  match entries.lookup key with
  | none => some (origin, entries ++ [(key, .table .header [])])
  | some (.table .implied below) =>
    some (origin, entries.filter (·.1 ≠ key) ++ [(key, .table .header below)])
  | some _ => none

/-- Opens one more table of an array of tables in the table above it. -/
def openItem (key : Text) (origin : Origin) (entries : Entries) : Option (Origin × Entries) :=
  match entries.lookup key with
  | none => some (origin, entries ++ [(key, .tables [[]])])
  | some (.tables items) => some (origin, setEntry key (.tables (items ++ [[]])) entries)
  | some _ => none

/-- A document under construction: its entries, and the table that the next key lines fill. -/
structure Draft where
  entries : Entries
  current : List Text

/-- The draft after a header. -/
def Draft.open (draft : Draft) (path : List Text) (isItem : Bool) : Option Draft :=
  match path.reverse with
  | [] => none
  | key :: before => do
    let (_, entries) ←
      descend (if isItem then openItem key else openTable key) before.reverse .header draft.entries
    return ⟨entries, path⟩

/-- The draft after a key line. -/
def Draft.put (draft : Draft) (path : List Text) (value : Value) : Option Draft :=
  match path.reverse with
  | [] => none
  | key :: before => do
    let (_, entries) ← descend (fun origin entries =>
      (putKey .header before.reverse key value entries).map (origin, ·)) draft.current .header
        draft.entries
    return { draft with entries := entries }

/-! ## Lines -/

/-- Reads one line that is not empty into a draft. -/
def Draft.line? (draft : Draft) (text : Text) : Option (Draft × Text) :=
  match text with
  | '[' :: '[' :: rest => do
    let (path, rest) ← key? (depthLimit - 1) rest
    let rest ← after? ']' rest
    let rest ← after? ']' rest
    let rest ← afterLine? rest
    return (← draft.open path true, rest)
  | '[' :: rest => do
    let (path, rest) ← key? (depthLimit - 1) rest
    let rest ← after? ']' rest
    let rest ← afterLine? rest
    return (← draft.open path false, rest)
  | _ => do
    let ((path, value), rest) ← pair? (value? (depthLimit - 1)) text
    let rest ← afterLine? rest
    return (← draft.put path value, rest)

/-- Reads at most `n` lines. -/
def Draft.lines? : (n : Nat) → Draft → Text → Option Draft
  | 0, _, _ => none
  | n + 1, draft, text =>
    match skipBlanks text with
    | [] => some draft
    | '#' :: rest => (afterLine? ('#' :: rest)).bind (draft.lines? n)
    | '\n' :: rest => draft.lines? n rest
    | '\r' :: rest => (afterLineEnd? ('\r' :: rest)).bind (draft.lines? n)
    | text => (draft.line? text).bind fun (draft, rest) => draft.lines? n rest

/-- A text without the byte order mark at its front. -/
def dropByteOrderMark : Text → Text
  | '\ufeff' :: rest => rest
  | text => text

/-- The table that a document holds. -/
def parse? (document : Text) : Option Table :=
  let text := dropByteOrderMark document
  (Draft.lines? (text.length + 1) ⟨[], []⟩ text).map fun draft => entriesToTable draft.entries

end ComponentLoader.Toml
