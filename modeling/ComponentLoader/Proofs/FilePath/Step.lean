import ComponentLoader.Proofs.FileTree.Spelling
import ComponentLoader.Proofs.Text.Basic
import Mathlib.Data.List.Basic
set_option autoImplicit false

/-!
# Steps of a path (SPEC §3)

A path is a front, which says where it starts, and the steps from there.  The steps are read off the
pieces between the slashes of its text, each from its own text alone, and a path that is joined to
another one goes its own steps after those of the other.
-/

namespace ComponentLoader.FilePath

/-! ## Steps -/

/-- The segments of a path after its front. -/
def steps (path : FilePath) : List Segment :=
  path.segments.filter FileTree.isStep

/-- The front of a path leads nowhere from where it starts. -/
theorem steps_eq_filterMap (path : FilePath) :
    path.steps = (Text.splitOn '/' path.text).filterMap bodySegment? := by
  obtain ⟨text⟩ := path
  unfold steps segments
  fun_cases front text with
  | case1 body =>
      simp [Text.splitOn, bodySegment?, FileTree.isStep, FileTree.filter_isStep_bodySegments]
  | case2 => decide
  | case3 body =>
      simp [Text.splitOn, bodySegment?, FileTree.isStep, FileTree.filter_isStep_bodySegments]
  | case4 => exact FileTree.filter_isStep_bodySegments _

/-- A segment that is read from its own text in the body of a path. -/
def Segment.IsReadBack (segment : Segment) : Prop :=
  bodySegment? segment.text = some segment ∧ '/' ∉ segment.text

theorem isReadBack_of_mem_steps {path : FilePath} {segment : Segment} (h : segment ∈ path.steps) :
    segment.IsReadBack := by
  rw [steps_eq_filterMap] at h
  obtain ⟨piece, hmem, hpiece⟩ := List.mem_filterMap.mp h
  unfold Segment.IsReadBack
  rw [text_of_bodySegment? hpiece]
  exact ⟨hpiece, Text.not_mem_of_mem_splitOn hmem⟩

theorem filterMap_bodySegment?_text {segments : List Segment}
    (h : ∀ segment ∈ segments, segment.IsReadBack) :
    (segments.map Segment.text).filterMap bodySegment? = segments := by
  rw [List.filterMap_map]
  calc
    segments.filterMap (bodySegment? ∘ Segment.text)
        = segments.filterMap some := List.filterMap_congr fun segment hmem => (h segment hmem).1
    _ = segments := List.filterMap_some

theorem splitOn_join_text {segments : List Segment} (hne : segments ≠ [])
    (h : ∀ segment ∈ segments, segment.IsReadBack) :
    Text.splitOn '/' (Text.join "/" (segments.map Segment.text)) = segments.map Segment.text := by
  refine Text.splitOn_join (by simpa using hne) ?_
  intro piece hmem
  obtain ⟨segment, hsegment, rfl⟩ := List.mem_map.mp hmem
  exact (h segment hsegment).2

theorem segments_of_isAbsolute {path : FilePath} (h : path.isAbsolute = true) :
    path.segments = .root :: path.steps := by
  obtain ⟨text⟩ := path
  unfold steps segments
  fun_cases front text with
  | case1 body => simp [FileTree.isStep, FileTree.filter_isStep_bodySegments]
  | case2 => cases h
  | case3 body => cases h
  | case4 _ hroot _ _ =>
      obtain ⟨body, rfl⟩ := List.head?_eq_some_iff.mp (by simpa [isAbsolute] using h)
      exact absurd rfl (hroot body)

theorem head?_segments_of_relative {path : FilePath} (h : path.isAbsolute = false) :
    path.segments.head? ≠ some .root := by
  obtain ⟨text⟩ := path
  unfold segments
  fun_cases front text with
  | case1 body => cases h
  | case2 => simp
  | case3 body => simp
  | case4 => exact FileTree.head?_bodySegments_ne_root _

/-! ### Joined paths -/

theorem join_of_isAbsolute (p : FilePath) {q : FilePath} (h : q.isAbsolute = true) :
    p.join q = q :=
  if_pos h

theorem steps_join (p : FilePath) {q : FilePath} (h : q.isAbsolute = false) :
    (p.join q).steps = p.steps ++ q.steps := by
  have hbehind (front : Text) : steps ⟨front ++ '/' :: q.text⟩ = steps ⟨front⟩ ++ q.steps := by
    simp only [steps_eq_filterMap, Text.splitOn_append, List.filterMap_append]
  unfold join
  rw [if_neg (by simp [h])]
  split
  · rename_i hp
    rcases hp with hnil | hslash
    · have hp : p.steps = [] := by
        rw [steps_eq_filterMap, hnil]
        rfl
      rw [hp, hnil]
      rfl
    · obtain ⟨front, hp⟩ := List.getLast?_eq_some_iff.mp hslash
      have hfront : p.steps = steps ⟨front⟩ := by
        rw [steps_eq_filterMap, hp, Text.splitOn_append, List.filterMap_append, steps_eq_filterMap]
        simp [Text.splitOn, bodySegment?]
      rw [hp, List.append_assoc, List.singleton_append, hbehind, hfront]
  · exact hbehind p.text

theorem isAbsolute_join {p : FilePath} (hp : p.isAbsolute = true) (q : FilePath) :
    (p.join q).isAbsolute = true := by
  unfold isAbsolute at hp
  have hhead := eq_of_beq hp
  unfold join
  split
  · assumption
  · obtain ⟨body, hbody⟩ := List.head?_eq_some_iff.mp hhead
    rw [hbody]
    split <;> rfl

/-- From a directory, a relative path goes its own steps. -/
theorem segments_join {p q : FilePath} (hp : p.isAbsolute = true) (hq : q.isAbsolute = false) :
    (p.join q).segments = p.segments ++ q.steps := by
  rw [segments_of_isAbsolute (isAbsolute_join hp q), steps_join p hq, segments_of_isAbsolute hp]
  rfl

theorem segments_join_of_same {p p' : FilePath} (hp : p.isAbsolute = true)
    (hp' : p'.isAbsolute = true) (hsame : p.Same p') (q : FilePath) :
    (p.join q).segments = (p'.join q).segments := by
  cases hq : q.isAbsolute with
  | false =>
      rw [segments_join hp hq, segments_join hp' hq, show p.segments = p'.segments from hsame]
  | true => rw [join_of_isAbsolute p hq, join_of_isAbsolute p' hq]

end ComponentLoader.FilePath
