import ComponentLoader.FilePath.Basic
set_option autoImplicit false

/-!
# File trees (SPEC §4.1)

The files that a load can see, as a value: the root directory with everything below it, and the
working directory from which relative paths start.  There are no links, so a path is followed piece
by piece, and every piece but the last has to be an existing directory, also before `..`.  A path
that ends in a slash or in `/.` names a directory or nothing.

The questions that loading asks are `isFile`, `readText` and `stamp`; those that fail say why with
an `IoFault`.  A `FileEdit` is one change from outside.
-/

namespace ComponentLoader

/-! ## Faults -/

/-- Why a path cannot be read. -/
inductive IoFault where
  /-- nothing has this path -/
  | missing
  /-- a file stands where a directory is needed -/
  | notDirectory
  /-- a directory has no text -/
  | isDirectory
  /-- a piece of the path or the whole path is too long -/
  | nameTooLong
  /-- the content is not UTF-8 -/
  | notText
  /-- the path holds the character U+0000 -/
  | nulInName
  deriving DecidableEq, Repr, Inhabited

/-- The wording of a fault. -/
def IoFault.message : IoFault → Text
  | missing => "No such file or directory (os error 2)"
  | notDirectory => "Not a directory (os error 20)"
  | isDirectory => "Is a directory (os error 21)"
  | nameTooLong => "File name too long (os error 36)"
  | notText => "stream did not contain valid UTF-8"
  | nulInName => "file name contained an unexpected NUL byte"

/-! ## Trees -/

/-- What an entry of a tree holds. -/
inductive FileContent where
  | directory
  | file (bytes : List UInt8)
  deriving DecidableEq, Repr, Inhabited

/-- An entry of a tree. -/
structure FileNode where
  /-- the number that tells this entry from every other one, also after a renaming -/
  inode : Nat
  /-- the time of the last change in nanoseconds since 1970 -/
  modified : Int
  content : FileContent
  deriving DecidableEq, Repr, Inhabited

/-- Whether an entry is a directory. -/
def FileNode.isDirectory (node : FileNode) : Bool :=
  match node.content with
  | .directory => true
  | .file _ => false

/-- A tree: its entries by the names that lead to them from the root. -/
structure FileTree where
  entries : List (List Text × FileNode)
  workingNames : List Text
  /-- a number no entry has had -/
  nextInode : Nat
  /-- the time that a directory gets when one of its entries comes or goes -/
  clock : Int
  deriving Repr, Inhabited

/-- What tells whether a path still has the content that was seen. -/
structure FileStamp where
  inode : Nat
  /-- nanoseconds since 1970, zero for earlier times -/
  modified : Nat
  length : Nat
  deriving DecidableEq, Repr, Inhabited

namespace FileTree

/-- The entry that some names lead to. -/
def node? (tree : FileTree) (names : List Text) : Option FileNode :=
  tree.entries.lookup names

/-- The longest name of an entry, in bytes. -/
def nameLimit : Nat := 255

/-- The first length that a whole path may not have, in bytes. -/
def pathLimit : Nat := 4096

/-- From the entry at `here` one piece of a path further. -/
def enter (tree : FileTree) (here : List Text) (piece : Text) : Except IoFault (List Text) :=
  match tree.node? here with
  | none => .error .missing
  | some node =>
    if !node.isDirectory then .error .notDirectory
    else if piece = [] ∨ piece = ['.'] then .ok here
    else if piece = ['.', '.'] then .ok here.dropLast
    else if nameLimit < Text.byteSize piece then .error .nameTooLong
    else if (tree.node? (here ++ [piece])).isSome then .ok (here ++ [piece])
    else .error .missing

/-- Where a path starts, and the pieces that are followed from there. -/
def route (tree : FileTree) (path : FilePath) : List Text × List Text :=
  match path.text with
  | '/' :: body => ([], Text.splitOn '/' body)
  | body => (tree.workingNames, Text.splitOn '/' body)

/-- The names of the entry that a path leads to. -/
def resolve (tree : FileTree) (path : FilePath) : Except IoFault (List Text) :=
  if path.text.contains '\x00' then .error .nulInName
  else if pathLimit ≤ Text.byteSize path.text then .error .nameTooLong
  else if path.text = [] then .error .missing
  else
    let (start, pieces) := tree.route path
    pieces.foldlM tree.enter start

/-- The entry that a path leads to. -/
def find (tree : FileTree) (path : FilePath) : Except IoFault FileNode :=
  match tree.resolve path with
  | .error fault => .error fault
  | .ok names =>
    match tree.node? names with
    | some node => .ok node
    | none => .error .missing

/-- Whether a path leads to a file. -/
def isFile (tree : FileTree) (path : FilePath) : Bool :=
  match tree.find path with
  | .ok node => !node.isDirectory
  | .error _ => false

/-- The text of the file at a path. -/
def readText (tree : FileTree) (path : FilePath) : Except IoFault Text :=
  match tree.find path with
  | .error fault => .error fault
  | .ok node =>
    match node.content with
    | .directory => .error .isDirectory
    | .file bytes =>
      match Text.ofUtf8? bytes with
      | some text => .ok text
      | none => .error .notText

/-- The stamp of an entry. -/
def stampOf (node : FileNode) : FileStamp :=
  { inode := node.inode
    modified := node.modified.toNat
    length :=
      match node.content with
      | .directory => 0
      | .file bytes => bytes.length }

/-- The stamp of the entry at a path. -/
def stamp (tree : FileTree) (path : FilePath) : Except IoFault FileStamp :=
  (tree.find path).map stampOf

/-- The path of the working directory. -/
def workingDirectory (tree : FileTree) : FilePath :=
  .ofSegments (.root :: tree.workingNames.map .name)

/-! ## Changes -/

/-- The names that a path spells, whether or not it exists. -/
def spelledNames (tree : FileTree) (path : FilePath) : List Text :=
  let (start, pieces) := tree.route path
  pieces.foldl (fun here piece =>
    if piece = [] ∨ piece = ['.'] then here
    else if piece = ['.', '.'] then here.dropLast
    else here ++ [piece]) start

/-- The tree with the entry at some names replaced by what `change` makes of it. -/
def adjust (tree : FileTree) (names : List Text) (change : FileNode → FileNode) : FileTree :=
  { tree with
    entries := tree.entries.map fun (key, node) =>
      if key = names then (key, change node) else (key, node) }

/-- The tree after the entries of the directory at some names changed. -/
def noteChange (tree : FileTree) (names : List Text) : FileTree :=
  { tree.adjust names (fun node => { node with modified := tree.clock }) with
    clock := tree.clock + 1 }

/-- The tree with a new entry. -/
def create (tree : FileTree) (names : List Text) (modified : Int) (content : FileContent) :
    FileTree :=
  noteChange
    { tree with
      entries := tree.entries ++ [(names, ⟨tree.nextInode, modified, content⟩)]
      nextInode := tree.nextInode + 1 }
    names.dropLast

/-- The tree in which a directory and all directories above it exist. -/
def ensureDirectories (tree : FileTree) (names : List Text) : FileTree :=
  (List.range (names.length + 1)).foldl (fun tree n =>
    let above := names.take n
    match tree.node? above with
    | some _ => tree
    | none => tree.create above tree.clock .directory) tree

/-- The tree of the root directory and a working directory. -/
def empty (workingNames : List Text) : FileTree :=
  ensureDirectories
    { entries := [([], ⟨1, 0, .directory⟩)]
      workingNames := workingNames
      nextInode := 2
      clock := 1 }
    workingNames

end FileTree

/-- One change to a tree from outside. -/
inductive FileEdit where
  /-- the file gets this content and time; a new file gets a new inode -/
  | write (path : FilePath) (bytes : List UInt8) (modified : Int)
  /-- the entry gets this time -/
  | touch (path : FilePath) (modified : Int)
  /-- the entry and everything below it goes -/
  | remove (path : FilePath)
  /-- the entry gets another path, in place of what was there -/
  | rename (source target : FilePath)
  /-- there is a directory at this path -/
  | makeDirectory (path : FilePath)
  deriving Repr, Inhabited

namespace FileTree

/-- The tree without the entries at and below some names. -/
def prune (tree : FileTree) (names : List Text) : FileTree :=
  { tree with entries := tree.entries.filter fun (key, _) => !names.isPrefixOf key }

/-- The tree after one change. -/
def edit (tree : FileTree) : FileEdit → FileTree
  | .write path bytes modified =>
    let names := tree.spelledNames path
    match tree.node? names with
    | some _ => tree.adjust names fun node =>
        { node with content := .file bytes, modified := modified }
    | none => (tree.ensureDirectories names.dropLast).create names modified (.file bytes)
  | .touch path modified =>
    tree.adjust (tree.spelledNames path) fun node => { node with modified := modified }
  | .remove path =>
    let names := tree.spelledNames path
    (tree.prune names).noteChange names.dropLast
  | .rename source target =>
    let old := tree.spelledNames source
    let new := tree.spelledNames target
    let moved := (tree.entries.filter fun (key, _) => old.isPrefixOf key).map fun (key, node) =>
      (new ++ key.drop old.length, node)
    let kept := (tree.prune old).prune new
    (({ kept with entries := kept.entries ++ moved }).noteChange old.dropLast).noteChange
      new.dropLast
  | .makeDirectory path =>
    tree.ensureDirectories (tree.spelledNames path)

/-- A path leads to a file exactly when it leads to an entry that is no directory. -/
theorem isFile_iff_exists (tree : FileTree) (path : FilePath) :
    tree.isFile path = true ↔ ∃ node, tree.find path = .ok node ∧ node.isDirectory = false := by
  unfold isFile
  cases tree.find path <;> simp

/-- A path that is too long leads nowhere. -/
theorem isFile_eq_false_of_pathLimit_le {tree : FileTree} {path : FilePath}
    (h : pathLimit ≤ Text.byteSize path.text) : tree.isFile path = false := by
  unfold isFile find resolve
  by_cases hnul : '\x00' ∈ path.text
  · simp [hnul]
  · simp [hnul, h]

end FileTree

end ComponentLoader
