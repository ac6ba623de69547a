import ComponentLoader.FilePath.Basic
set_option autoImplicit false

/-!
# Module ids (SPEC §3)

A module is asked for by the path of a file, and a part of a template by that path and a query: the
pairs `type`, `i` and `scope` after the first `?`.  `parse` reads an id, `text` writes it.  Pairs
with other keys are allowed and mean nothing; of a key given twice the last value counts.

What is read has a path in Unicode.  An id that is put together from a path and a part is a
`NativeId`; it is written and read in the same form.
-/

namespace ComponentLoader

/-- A part of a template, or a way to ask for a stylesheet. -/
inductive ModulePart where
  /-- the script element with this number, counted from zero -/
  | script (index : UInt64)
  /-- a stylesheet with the scope token it is for; of a template, the style
  element with the number -/
  | stylesheet (scope : Option Text) (index : Option UInt64)
  deriving DecidableEq, Repr, Inhabited

/-- What a module is asked for by. -/
structure ModuleId where
  path : FilePath
  part : Option ModulePart := none
  deriving DecidableEq, Repr, Inhabited

/-- Why a text is no module id. -/
inductive ModuleIdError where
  | unknownType (name : Text)
  | invalidIndex (value : Text)
  | missingIndex
  deriving DecidableEq, Repr, Inhabited

/-- The wording of an error. -/
def ModuleIdError.message : ModuleIdError → Text
  | unknownType name => "unknown sub-resource type '" ++ name ++ "'"
  | invalidIndex value => "invalid sub-resource index '" ++ value ++ "'"
  | missingIndex => "script sub-resource requires an index"

namespace ModuleId

/-! ## Writing -/

/-- The value of `type` for a script. -/
def scriptType : Text := "componentScript"

/-- The value of `type` for a stylesheet. -/
def stylesheetType : Text := "componentStylesheet"

/-- The query that asks for a part. -/
def queryText : ModulePart → Text
  | .script index => "type=" ++ scriptType ++ "&i=" ++ Text.decimal index.toNat
  | .stylesheet scope index =>
    "type=" ++ stylesheetType ++
      (match scope with
        | some scope => "&scope=" ++ scope
        | none => []) ++
      (match index with
        | some index => "&i=" ++ Text.decimal index.toNat
        | none => [])

/-- An id as text. -/
def text (id : ModuleId) : Text :=
  match id.part with
  | none => id.path.text
  | some part => id.path.text ++ '?' :: queryText part

/-! ## Reading -/

/-- What the pairs of a query say. -/
structure Query where
  kind : Option Text := none
  index : Option UInt64 := none
  scope : Option Text := none
  deriving DecidableEq, Repr, Inhabited

/-- An index: decimal digits, with a plus sign allowed in front, for a number of 64 bits. -/
def readIndex? (value : Text) : Option UInt64 := do
  let n ← Text.readDecimal? ((Text.dropLead? "+" value).getD value)
  if n < UInt64.size then some (.ofNat n) else none

/-- A pair as key and value; without `=` the value is empty. -/
def splitPair (pair : Text) : Text × Text :=
  (Text.cut '=' pair).getD (pair, [])

/-- A query after one more pair. -/
def Query.add (query : Query) (pair : Text) : Except ModuleIdError Query :=
  let (key, value) := splitPair pair
  if key = "type".toList then .ok { query with kind := some value }
  else if key = "i".toList then
    match readIndex? value with
    | some index => .ok { query with index := some index }
    | none => .error (.invalidIndex value)
  else if key = "scope".toList ∧ value ≠ [] then .ok { query with scope := some value }
  else .ok query

/-- The pairs of a query text. -/
def queryPairs (query : Text) : List Text :=
  (Text.splitOn '&' query).filter (· ≠ [])

/-- What a query text says. -/
def Query.parse (query : Text) : Except ModuleIdError Query :=
  (queryPairs query).foldlM Query.add {}

/-- The part that a query asks for. -/
def Query.part (query : Query) : Except ModuleIdError (Option ModulePart) :=
  match query.kind with
  | none => .ok none
  | some kind =>
    if kind = scriptType then
      match query.index with
      | some index => .ok (some (.script index))
      | none => .error .missingIndex
    else if kind = stylesheetType then .ok (some (.stylesheet query.scope query.index))
    else .error (.unknownType kind)

/-- The path of an id text: all up to the first `?`. -/
def pathOf (id : Text) : FilePath :=
  ⟨Text.upTo '?' id⟩

/-- Reads an id. -/
def parse (id : Text) : Except ModuleIdError ModuleId :=
  match Text.cut '?' id with
  | none => .ok ⟨⟨id⟩, none⟩
  | some (path, query) => do
    let query ← Query.parse query
    let part ← query.part
    return ⟨⟨path⟩, part⟩

/-- Whether two ids ask for the same, however their paths are spelled. -/
def Same (a b : ModuleId) : Prop :=
  a.path.Same b.path ∧ a.part = b.part

instance (a b : ModuleId) : Decidable (Same a b) :=
  inferInstanceAs (Decidable (_ ∧ _))

end ModuleId

/-! ## Ids with paths that need not be Unicode -/

/-- What a module is asked for by, put together from parts: any path will do. -/
structure NativeId where
  path : NativePath
  part : Option ModulePart := none
  deriving DecidableEq, Repr, Inhabited

namespace NativeId

/-- An id that was read. -/
def ofId (id : ModuleId) : NativeId :=
  ⟨.ofPath id.path, id.part⟩

/-- An id as text: its path is written for a reader. -/
def text (id : NativeId) : Text :=
  ModuleId.text ⟨⟨id.path.display⟩, id.part⟩

/-- Reads an id. -/
def parse (text : Text) : Except ModuleIdError NativeId :=
  (ModuleId.parse text).map ofId

/-- Whether two ids ask for the same, however their paths are spelled. -/
def Same (a b : NativeId) : Prop :=
  a.path.Same b.path ∧ a.part = b.part

instance (a b : NativeId) : Decidable (Same a b) :=
  inferInstanceAs (Decidable (_ ∧ _))

@[simp]
theorem text_ofId (id : ModuleId) : (ofId id).text = id.text := by
  unfold text ofId
  rw [NativePath.display_ofPath]

end NativeId

end ComponentLoader
