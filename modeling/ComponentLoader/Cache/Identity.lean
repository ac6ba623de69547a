import ComponentLoader.FileTree.Basic
import ComponentLoader.OrderedMap
set_option autoImplicit false

/-!
# Identities of files (SPEC §4.1)

Whether a file has changed is told by its identity, a token made from what the file system says
about it, so its content is never read for this.  Within one pass a path keeps the identity with
which it was first seen: the memo remembers it until the next pass begins.  A path of which no
identity was found is not remembered.
-/

namespace ComponentLoader

/-- The identity of a file; identities are compared for equality only (SPEC §3). -/
structure CacheKey where
  token : Text
  deriving DecidableEq, Repr, Inhabited

/-- The identity that a stamp stands for. -/
def CacheKey.ofStamp (stamp : FileStamp) : CacheKey :=
  ⟨Text.decimal stamp.inode ++ "-" ++ Text.decimal stamp.modified ++ "-" ++
    Text.decimal stamp.length⟩

/-- Why a path has no identity. -/
structure IdentityError where
  path : FilePath
  fault : IoFault
  deriving DecidableEq, Repr, Inhabited

/-- The wording of an error. -/
def IdentityError.message (e : IdentityError) : Text :=
  "cannot read metadata of " ++ e.path.text ++ ": " ++ e.fault.message

/-- The identities that were found in this pass. -/
structure IdentityMemo where
  known : OrderedMap FilePath CacheKey
  deriving Repr, Inhabited

namespace IdentityMemo

/-- The memo at the beginning of a pass. -/
def empty : IdentityMemo := ⟨.empty⟩

/-- The number of paths that are remembered. -/
def size (memo : IdentityMemo) : Nat :=
  memo.known.size

/-- The identity that a path has now. -/
def observe (files : FileTree) (path : FilePath) : Except IdentityError CacheKey :=
  match files.stamp path with
  | .ok stamp => .ok (.ofStamp stamp)
  | .error fault => .error ⟨path, fault⟩

/-- The identity of a path in this pass, and the memo in which it is remembered.  A path without one
is not remembered (SPEC §4.1). -/
def identity (memo : IdentityMemo) (files : FileTree) (path : FilePath) :
    Except IdentityError (CacheKey × IdentityMemo) :=
  match memo.known.get? path with
  | some key => .ok (key, memo)
  | none =>
    match observe files path with
    | .ok key => .ok (key, ⟨memo.known.insert path key⟩)
    | .error e => .error e

/-- Whether all paths have the identities that were recorded for them, in order up to the first one
that has not, and the memo after these questions. -/
def confirm (memo : IdentityMemo) (files : FileTree) :
    List (FilePath × CacheKey) → Bool × IdentityMemo
  | [] => (true, memo)
  | (path, recorded) :: rest =>
    match memo.identity files path with
    | .error _ => (false, memo)
    | .ok (key, memo) => if key = recorded then memo.confirm files rest else (false, memo)

end IdentityMemo

end ComponentLoader
