import ComponentLoader.Cache.Identity
import ComponentLoader.Template.Compile
set_option autoImplicit false

/-!
# Cache entries (SPEC §4.2)

A result together with the identities of the files that it was made from.  An entry may be used
again as long as its own file and every recorded dependency still have those identities.  How often
a kept result was used, and how often one had to be made, is counted in words of 64 bits.
-/

namespace ComponentLoader

/-- A kept result. -/
structure CacheEntry where
  /-- the identity of the file itself -/
  key : CacheKey
  source : Text
  code : Text
  /-- the identities of the other files that it was made from -/
  dependencies : OrderedMap FilePath CacheKey := .empty
  diagnostics : List Diagnostic := []
  deriving Repr, Inhabited

/-- A kept template with its resources and with what was made of its inline stylesheets, by id. -/
structure TemplateEntry where
  base : CacheEntry
  scripts : List Resource
  styles : List Resource
  styleCache : OrderedMap Text CacheEntry := .empty
  deriving Repr, Inhabited

/-- A compiled template as an entry; no stylesheet has been made of it yet. -/
def TemplateEntry.ofCompiled (key : CacheKey) (compiled : CompiledTemplate) : TemplateEntry where
  base := {
    key := key
    source := compiled.source
    code := compiled.code
    diagnostics := compiled.diagnostics }
  scripts := compiled.scripts
  styles := compiled.styles

/-- Whether an entry may be used for a file that has the identity `current`, and the memo after the
questions that this took.  Dependencies are compared as recorded, never found anew (SPEC §4.2). -/
def CacheEntry.isValid (entry : CacheEntry) (files : FileTree) (current : CacheKey)
    (memo : IdentityMemo) : Bool × IdentityMemo :=
  if entry.key = current then memo.confirm files entry.dependencies.entries else (false, memo)

/-! ## Counts of use -/

/-- Hits and misses. -/
structure CacheCounts where
  hits : UInt64 := 0
  misses : UInt64 := 0
  deriving DecidableEq, Repr, Inhabited

namespace CacheCounts

/-- The counts after one more hit. -/
def hit (counts : CacheCounts) : CacheCounts :=
  { counts with hits := counts.hits + 1 }

/-- The counts after one more miss. -/
def miss (counts : CacheCounts) : CacheCounts :=
  { counts with misses := counts.misses + 1 }

/-- What was counted after the counts were `earlier`. -/
def since (counts earlier : CacheCounts) : CacheCounts where
  hits := counts.hits - earlier.hits
  misses := counts.misses - earlier.misses

end CacheCounts

end ComponentLoader
