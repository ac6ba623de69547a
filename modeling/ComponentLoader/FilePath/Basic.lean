import ComponentLoader.Text.Basic
set_option autoImplicit false

/-!
# File paths (SPEC §3)

A path keeps the text it was spelled with, and printing it gives that text back.  What it names is
its list of `segments`: repeated and trailing slashes and the segment `.` after the front are not
among them, a leading `.` is, and `..` is a segment that is never folded.  Two paths with equal
segments are the `Same` path, and paths are ordered segment by segment.

`parent?`, `fileName?`, `stem?`, `extension?` and `join` are the usual operations; `normalize`
resolves `.` and `..` without looking at any file.

A `FilePath` is spelled in Unicode, as every path is that comes from an id, a configuration file or
an argument.  File systems also have paths that are not; only an id that was put together from
parts can hold one, and these are the `NativePath`s at the end of the file.  Working directories and
the files of a tree are taken to be named in Unicode.
-/

namespace ComponentLoader

/-- A path, as spelled. -/
structure FilePath where
  text : Text
  deriving DecidableEq, Repr, Inhabited

namespace FilePath

/-! ## Segments -/

/-- What one segment of a path names. -/
inductive Segment where
  /-- the root directory -/
  | root
  /-- the directory itself, `.` at the front of a path -/
  | here
  /-- the parent directory, `..` -/
  | up
  /-- an entry of the directory -/
  | name (text : Text)
  deriving DecidableEq, Repr, Inhabited

namespace Segment

/-- The spelling of a segment. -/
def text : Segment → Text
  | root => "/"
  | here => "."
  | up => ".."
  | name text => text

/-- The place of the kinds of segments in the order of paths. -/
def rank : Segment → Nat
  | root => 0
  | here => 1
  | up => 2
  | name _ => 3

/-- Segments are ordered by kind, and names by their characters. -/
def order : Segment → Segment → Ordering
  | name a, name b => compare a b
  | a, b => compare a.rank b.rank

end Segment

/-- The text of a path in two parts: the segment that only a front can be, and the body, in which
slashes separate segments. -/
def front : Text → List Segment × Text
  | '/' :: body => ([.root], body)
  | ['.'] => ([.here], [])
  | '.' :: '/' :: body => ([.here], '/' :: body)
  | body => ([], body)

/-- The segment that a piece of a body stands for; an empty piece and `.` stand for none. -/
def bodySegment? (piece : Text) : Option Segment :=
  if piece = [] ∨ piece = ['.'] then none
  else if piece = ['.', '.'] then some .up
  else some (.name piece)

theorem text_of_bodySegment? {piece : Text} {segment : Segment}
    (h : bodySegment? piece = some segment) : segment.text = piece := by
  unfold bodySegment? at h
  split at h
  · cases h
  · split at h
    · rename_i hup
      cases h
      exact hup.symm
    · cases h
      rfl

/-- The segments of a path in order. -/
def segments (path : FilePath) : List Segment :=
  let (lead, body) := front path.text
  lead ++ (Text.splitOn '/' body).filterMap bodySegment?

/-- Two spellings of one path. -/
def Same (p q : FilePath) : Prop :=
  p.segments = q.segments

instance (p q : FilePath) : Decidable (Same p q) :=
  inferInstanceAs (Decidable (p.segments = q.segments))

theorem Same.refl (p : FilePath) : Same p p := rfl

theorem Same.symm {p q : FilePath} (h : Same p q) : Same q p :=
  Eq.symm h

theorem Same.trans {p q r : FilePath} (h : Same p q) (h' : Same q r) : Same p r :=
  Eq.trans h h'

/-- Paths are ordered segment by segment. -/
instance : Ord FilePath where
  compare p q := List.compareLex Segment.order p.segments q.segments

/-- Whether a path starts at the root directory. -/
def isAbsolute (path : FilePath) : Bool :=
  path.text.head? == some '/'

/-! ## Parts of a path -/

/-- A body, read from its end, without the slashes and `.` pieces there that name nothing. -/
def trimBack : Text → Text
  | '/' :: rest => trimBack rest
  | '.' :: '/' :: rest => trimBack rest
  | ['.'] => []
  | body => body

/-- The path without its last segment; none for the root and for the empty path. -/
def parent? (path : FilePath) : Option FilePath :=
  let (lead, body) := front path.text
  match trimBack body.reverse with
  | [] => if lead = [.here] then some ⟨[]⟩ else none
  | c :: rest =>
    let remaining := trimBack (((c :: rest).dropWhile (· ≠ '/')).drop 1)
    some ⟨lead.flatMap Segment.text ++ remaining.reverse⟩

/-- The last segment, if it is a name. -/
def fileName? (path : FilePath) : Option Text :=
  match path.segments.getLast? with
  | some (.name text) => some text
  | _ => none

/-- A file name at its last dot: what is before it and what is after it.  A dot at the front does
not count, so `.html` has no second part. -/
def splitName (name : Text) : Text × Option Text :=
  match name.reverse.dropWhile (· ≠ '.') with
  | _ :: c :: before => ((c :: before).reverse, some (name.reverse.takeWhile (· ≠ '.')).reverse)
  | _ => (name, none)

/-- The file name without its extension. -/
def stem? (path : FilePath) : Option Text :=
  path.fileName?.map fun name => (splitName name).1

/-- What follows the last dot of the file name. -/
def extension? (path : FilePath) : Option Text :=
  path.fileName?.bind fun name => (splitName name).2

/-- The extension with ASCII letters in lower case, by which kinds of files are told apart. -/
def kind? (path : FilePath) : Option Text :=
  path.extension?.map Text.asciiLower

/-! ## Building paths -/

/-- The path `q` as seen from `p`; an absolute `q` is itself. -/
def join (p q : FilePath) : FilePath :=
  if q.isAbsolute then q
  else if p.text = [] ∨ p.text.getLast? = some '/' then ⟨p.text ++ q.text⟩
  else ⟨p.text ++ '/' :: q.text⟩

/-- The path that consists of the given segments. -/
def ofSegments (segments : List Segment) : FilePath :=
  segments.foldl (fun path segment => path.join ⟨segment.text⟩) ⟨[]⟩

/-- The directory that a path's neighbours are looked up in: its parent, or
`.` where it has none. -/
def directory (path : FilePath) : FilePath :=
  path.parent?.getD ⟨['.']⟩

/-- The segments kept so far, the last one first, after one more: `.` is dropped, and `..` removes
the segment before it unless that is the root or there is none. -/
def resolveSegment (kept : List Segment) : Segment → List Segment
  | .here => kept
  | .up =>
    match kept with
    | .name _ :: rest => rest
    | .up :: rest => rest
    | _ => .up :: kept
  | segment => segment :: kept

/-- The path with `.` and `..` resolved from its text alone. -/
def normalize (path : FilePath) : FilePath :=
  ofSegments (path.segments.foldl resolveSegment []).reverse

/-- The path as seen from `root`, with single slashes and without a leading `.`; a path outside
`root` keeps all its segments but the root directory. -/
def relativeTo (root path : FilePath) : Text :=
  let inside :=
    if root.segments.isPrefixOf path.segments then path.segments.drop root.segments.length
    else path.segments
  Text.join "/" (inside.filterMap fun segment =>
    match segment with
    | .name text => some text
    | .up => some ".."
    | _ => none)

/-! ## Parents are shorter -/

theorem length_trimBack_le (body : Text) : (trimBack body).length ≤ body.length := by
  fun_induction trimBack body with
  | case1 rest ih => simp only [List.length_cons]; omega
  | case2 rest ih => simp only [List.length_cons]; omega
  | case3 => simp
  | case4 => simp

theorem length_front (text : Text) :
    ((front text).1.flatMap Segment.text).length + (front text).2.length = text.length := by
  fun_cases front text <;> simp [Segment.text] <;> omega

/-- The parent of a path has a shorter text, so a walk towards the root ends. -/
theorem length_parent?_lt {path parent : FilePath} (h : path.parent? = some parent) :
    parent.text.length < path.text.length := by
  have hfront := length_front path.text
  unfold parent? at h
  generalize hsplit : front path.text = parts at h hfront
  obtain ⟨lead, body⟩ := parts
  simp only at h hfront
  split at h
  · split at h
    · rename_i hhere
      cases h
      subst hhere
      simp only [List.flatMap_cons, List.flatMap_nil, Segment.text] at hfront
      simp only [List.length_nil]
      have : ("." : String).toList.length = 1 := by decide
      simp only [List.append_nil, this] at hfront
      omega
    · cases h
  · rename_i c rest htrim
    cases h
    have h₁ := length_trimBack_le body.reverse
    have h₂ := length_trimBack_le (((c :: rest).dropWhile (· ≠ '/')).drop 1)
    have h₃ := (List.dropWhile_sublist (p := (· ≠ '/')) (l := c :: rest)).length_le
    rw [htrim] at h₁
    simp only [List.length_drop, List.length_append, List.length_reverse, List.length_cons] at *
    omega

end FilePath

/-! ## Paths that need not be Unicode -/

/-- A path as the bytes that a file system knows it by. -/
structure NativePath where
  bytes : List UInt8
  deriving DecidableEq, Repr, Inhabited

namespace NativePath

/-- The path that is spelled with a text. -/
def ofPath (path : FilePath) : NativePath :=
  ⟨Text.utf8 path.text⟩

/-- A path for a reader, with U+FFFD for what is no character. -/
def display (path : NativePath) : Text :=
  Text.ofUtf8Lossy path.bytes

/-- The path with one character for each byte.  Segments are cut at bytes and compared by bytes, so
these are the characters whose segments count. -/
def bytewise (path : NativePath) : FilePath :=
  ⟨path.bytes.map Char.ofUInt8⟩

/-- Two spellings of one path. -/
def Same (p q : NativePath) : Prop :=
  p.bytewise.Same q.bytewise

instance (p q : NativePath) : Decidable (Same p q) :=
  inferInstanceAs (Decidable (p.bytewise.Same q.bytewise))

/-- Some text spells the path. -/
def IsUnicode (path : NativePath) : Prop :=
  ∃ text, Text.utf8 text = path.bytes

@[simp]
theorem display_ofPath (path : FilePath) : (ofPath path).display = path.text :=
  Text.ofUtf8Lossy_utf8 path.text

theorem isUnicode_ofPath (path : FilePath) : (ofPath path).IsUnicode :=
  ⟨path.text, rfl⟩

theorem IsUnicode.exists_eq_ofPath {path : NativePath} (h : path.IsUnicode) :
    ∃ p, path = ofPath p := by
  obtain ⟨text, htext⟩ := h
  exact ⟨⟨text⟩, congrArg NativePath.mk htext.symm⟩

theorem isUnicode_iff_utf8_display {path : NativePath} :
    path.IsUnicode ↔ Text.utf8 path.display = path.bytes := by
  constructor
  · rintro ⟨text, htext⟩
    rw [display, ← htext, Text.ofUtf8Lossy_utf8]
  · intro h
    exact ⟨path.display, h⟩

instance (path : NativePath) : Decidable path.IsUnicode :=
  decidable_of_iff _ isUnicode_iff_utf8_display.symm

end NativePath

end ComponentLoader
