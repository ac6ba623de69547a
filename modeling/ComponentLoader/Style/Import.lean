import ComponentLoader.Style.Fault
import ComponentLoader.Text.Line
import ComponentLoader.Text.Space
set_option autoImplicit false

/-!
# Inlining imports (SPEC §4.3)

A line that consists of an import of local files stands for their texts, in which imports are
inlined in turn.  A line with a target on the network stays, and so does every other line.  Targets
are looked up beside the importing file, as spelled and then with the usual extensions.

An import of a file that is being read already is an error, since its text would have no end.
Because no path of `FileTree.pathLimit` bytes leads anywhere, there are fewer than `chainLimit`
paths that can be read, and the levels of imports are counted down from there.
-/

namespace ComponentLoader

/-- A text with its imports inlined, and the files that were read for it, in
the order of reading. -/
structure Inlined where
  css : Text
  loaded : List FilePath
  deriving DecidableEq, Repr, Inhabited

/-- Two inlined texts one after the other. -/
instance : Append Inlined where
  append a b := ⟨a.css ++ b.css, a.loaded ++ b.loaded⟩

namespace Import

/-! ## Import lines -/

/-- The text between two equal quotes. -/
def unquoted? (quote : Char) (text : Text) : Option Text :=
  match Text.dropLead? [quote] text with
  | some rest => Text.dropTail? [quote] rest
  | none => none

/-- Whether a target is on the network. -/
def isRemote (target : Text) : Bool :=
  "http:".toList.isPrefixOf target || "https:".toList.isPrefixOf target ||
    "//".toList.isPrefixOf target

/-- The local target that a part of an import names in quotes. -/
def localTarget? (part : Text) : Option Text :=
  let part := Text.trim part
  match (unquoted? '"' part).orElse fun _ => unquoted? '\'' part with
  | some target => if isRemote target then none else some target
  | none => none

/-- The targets of a line that imports local files and does nothing else. -/
def targets? (line : Text) : Option (List Text) := do
  let rest ← Text.dropLead? "@import" (Text.trim line)
  let list ← Text.dropTail? ";" (Text.trim rest)
  (Text.splitOn ',' (Text.trim list)).mapM localTarget?

/-! ## Finding files -/

/-- The paths at which the target of an import can be, the best first (SPEC §4.3). -/
def candidates (importer : FilePath) (target : Text) : List FilePath :=
  let base := importer.directory
  let wanted := base.join ⟨target⟩
  let directory := wanted.parent?.getD base
  match wanted.fileName? with
  | none => []
  | some name => [
      wanted,
      directory.join ⟨name ++ ".scss"⟩,
      directory.join ⟨'_' :: name ++ ".scss"⟩,
      directory.join ⟨name ++ ".css"⟩]

/-- The file that the target of an import is. -/
def find? (files : FileTree) (importer : FilePath) (target : Text) : Option FilePath :=
  (candidates importer target).find? files.isFile

/-! ## Inlining -/

/-- More than the number of paths that lead anywhere: a path is a text of fewer than
`FileTree.pathLimit` characters, and there are 0x110000 characters. -/
def chainLimit : Nat := Nat.pow (Nat.pow 0x110001 64) 64

/-- An inlined text as a piece of another one: it ends a line. -/
def endLine (css : Text) : Text :=
  if css.getLast? = some '\n' then css else css ++ ['\n']

/-- What the members of a list are inlined to, one after the other. -/
def inlineAll {α : Type} (inline : α → Except StyleError Inlined) :
    List α → Except StyleError Inlined
  | [] => .ok ⟨[], []⟩
  | x :: rest => do
    let first ← inline x
    let others ← inlineAll inline rest
    return first ++ others

/-- The files that are being read, each by the segments of its path, the importing one first. -/
abbrev Chain : Type := List (List FilePath.Segment)

/-- What one target of an import is inlined to. -/
def inlineTarget (files : FileTree)
    (inline : Chain → FilePath → Text → Except StyleError Inlined)
    (chain : Chain) (importer : FilePath) (target : Text) : Except StyleError Inlined :=
  match find? files importer target with
  | none => .error (.preprocess importer (.unresolvedImport target))
  | some path =>
    let segments := path.segments
    if segments ∈ chain then
      .error (.preprocess importer (.importCycle path))
    else
      match files.readText path with
      | .error fault => .error (.unreadable path fault)
      | .ok text => do
        let inner ← inline (segments :: chain) path text
        return ⟨endLine inner.css, path :: inner.loaded⟩

/-- What a line is inlined to. -/
def inlineLine (files : FileTree)
    (inline : Chain → FilePath → Text → Except StyleError Inlined)
    (chain : Chain) (importer : FilePath) (line : Text) : Except StyleError Inlined :=
  match targets? line with
  | none => .ok ⟨line, []⟩
  | some targets => inlineAll (inlineTarget files inline chain importer) targets

/-- What a text is inlined to with at most `n` levels.  More levels than there are paths would read
some path within itself. -/
def inlineWithin (files : FileTree) :
    (n : Nat) → Chain → FilePath → Text → Except StyleError Inlined
  | 0, _, file, _ => .error (.preprocess file (.importCycle file))
  | n + 1, chain, file, source =>
    inlineAll (inlineLine files (inlineWithin files n) chain file) (Text.splitAfterNewline source)

/-- What the text of the file at `url` is inlined to. -/
def inline (files : FileTree) (url : FilePath) (source : Text) : Except StyleError Inlined :=
  inlineWithin files chainLimit [url.segments] url source

end Import

/-! ## Preprocessors -/

/-- A preprocessed stylesheet. -/
structure Preprocessed where
  css : Text
  sourceMap : Option Text := none
  /-- the files that were read beside the stylesheet itself -/
  loaded : List FilePath := []
  deriving DecidableEq, Repr, Inhabited

/-- A way to turn a stylesheet at some path into plain CSS, with a source map if one is wanted. -/
abbrev Preprocessor : Type :=
  (files : FileTree) → (source : Text) → (url : FilePath) → (wantsMap : Bool) →
    Except StyleError Preprocessed

/-- The preprocessor that inlines imports. -/
def inlineImports : Preprocessor := fun files source url _ =>
  match Import.inline files url source with
  | .ok inlined => .ok { css := inlined.css, loaded := inlined.loaded }
  | .error e => .error e

end ComponentLoader
