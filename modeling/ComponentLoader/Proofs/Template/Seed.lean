import ComponentLoader.Digest.Fingerprint
import ComponentLoader.Proofs.FilePath.Step
import ComponentLoader.Session.Basic
import Mathlib.Data.List.Basic
set_option autoImplicit false

/-!
# What a scope seed tells of its file (SPEC §4.4, §8)

The scope token of a template is made from its path as seen from the root.  That text can be read
back: it has the steps of the path below the root, or all of them if the path does not lead into the
root (`FilePath.steps_relativeTo`).  What it does not have is the root directory, so a path outside
the root gives the seed of the path in the root that has the same steps.
-/

namespace ComponentLoader

namespace FilePath

/-! ## Paths as seen from a root -/

/-- An absolute path that does not lead into a root. -/
def Outside (root path : FilePath) : Prop :=
  path.isAbsolute = true ∧ ¬root.segments <+: path.segments

instance (root path : FilePath) : Decidable (root.Outside path) :=
  inferInstanceAs (Decidable (_ ∧ _))

/-- The steps of a path that are seen from a root. -/
def stepsFrom (root path : FilePath) : List Segment :=
  (if root.segments.isPrefixOf path.segments then path.segments.drop root.segments.length
    else path.segments).filter FileTree.isStep

theorem mem_steps_of_stepsFrom {root path : FilePath} {segment : Segment}
    (h : segment ∈ root.stepsFrom path) : segment ∈ path.steps := by
  unfold stepsFrom at h
  unfold steps
  split at h
  · exact ((List.drop_sublist _ _).filter _).subset h
  · exact h

theorem relativeTo_eq_join (root path : FilePath) :
    relativeTo root path = Text.join "/" ((root.stepsFrom path).map Segment.text) := by
  unfold relativeTo stepsFrom
  refine congrArg (Text.join "/") ?_
  generalize (if root.segments.isPrefixOf path.segments then path.segments.drop root.segments.length
    else path.segments) = segments
  induction segments with
  | nil => rfl
  | cons segment others ih =>
      cases segment with
      | root => exact ih
      | here => exact ih
      | up => exact congrArg (Segment.text .up :: ·) ih
      | name text => exact congrArg (text :: ·) ih

/-- The steps that are seen can be read back. -/
theorem steps_relativeTo (root path : FilePath) :
    steps ⟨relativeTo root path⟩ = root.stepsFrom path := by
  have hback (segment : Segment) (hmem : segment ∈ root.stepsFrom path) : segment.IsReadBack :=
    isReadBack_of_mem_steps (mem_steps_of_stepsFrom hmem)
  rw [steps_eq_filterMap, relativeTo_eq_join]
  by_cases hnone : root.stepsFrom path = []
  · rw [hnone]
    rfl
  · rw [splitOn_join_text hnone hback, filterMap_bodySegment?_text hback]

theorem relativeTo_eq_iff {root p q : FilePath} :
    relativeTo root p = relativeTo root q ↔ root.stepsFrom p = root.stepsFrom q := by
  constructor
  · intro h
    rw [← steps_relativeTo, h, steps_relativeTo]
  · intro h
    rw [relativeTo_eq_join, h, ← relativeTo_eq_join]

section

variable {root path : FilePath}

theorem stepsFrom_of_outside (h : root.Outside path) :
    root.stepsFrom path = path.steps := by
  unfold stepsFrom
  rw [if_neg (mt List.isPrefixOf_iff_prefix.mp h.2)]
  rfl

/-- A path that is not outside goes from the root the steps that are seen. -/
theorem segments_join_of_not_outside (hroot : root.isAbsolute = true) (h : ¬root.Outside path) :
    (root.join path).segments = root.segments ++ root.stepsFrom path := by
  cases hpath : path.isAbsolute with
  | false =>
      have hnot : ¬root.segments <+: path.segments := by
        rw [segments_of_isAbsolute hroot]
        rintro ⟨rest, hrest⟩
        exact head?_segments_of_relative hpath (hrest ▸ rfl)
      unfold stepsFrom
      rw [if_neg (mt List.isPrefixOf_iff_prefix.mp hnot)]
      exact segments_join hroot hpath
  | true =>
      obtain ⟨rest, hrest⟩ : root.segments <+: path.segments := by
        simpa [Outside, hpath] using h
      -- behind the root directory there are steps only
      have hsteps : rest.filter FileTree.isStep = rest := by
        rw [segments_of_isAbsolute hroot, segments_of_isAbsolute hpath] at hrest
        rw [List.filter_eq_self]
        intro segment hmem
        have hmem' : segment ∈ path.steps := by
          rw [← (List.cons.inj hrest).2]
          exact List.mem_append_right _ hmem
        exact (List.mem_filter.mp hmem').2
      unfold stepsFrom
      rw [join_of_isAbsolute root hpath, ← hrest,
        if_pos (List.isPrefixOf_iff_prefix.mpr (List.prefix_append _ _)), List.drop_left, hsteps]

end

end FilePath

/-! ## Seeds -/

namespace Naming

section

variable {cwd root p q : FilePath}

/-- A root that names the working directory leads where that does, and an absolute path leads to one
place from everywhere. -/
theorem segments_join_eq (hcwd : cwd.isAbsolute = true) (hroot : root.isAbsolute = true)
    (placed : p.isAbsolute = true ∨ root.Same cwd) :
    (root.join p).segments = (cwd.join p).segments := by
  rcases placed with habsolute | hsame
  · rw [FilePath.join_of_isAbsolute root habsolute, FilePath.join_of_isAbsolute cwd habsolute]
  · exact FilePath.segments_join_of_same hroot hcwd hsame p

/-- Two paths that are both relative or both absolute name one file from a root exactly if they do
so from the working directory. -/
theorem same_join_iff (hcwd : cwd.isAbsolute = true) (hroot : root.isAbsolute = true)
    (placed : p.isAbsolute = q.isAbsolute ∨ root.Same cwd) :
    (root.join p).Same (root.join q) ↔ (cwd.join p).Same (cwd.join q) := by
  unfold FilePath.Same
  by_cases hrelative : p.isAbsolute = false ∧ q.isAbsolute = false
  · obtain ⟨hp, hq⟩ := hrelative
    rw [FilePath.segments_join hroot hp, FilePath.segments_join hroot hq,
      FilePath.segments_join hcwd hp, FilePath.segments_join hcwd hq, List.append_cancel_left_eq,
      List.append_cancel_left_eq]
  · have hplaced : (p.isAbsolute = true ∧ q.isAbsolute = true) ∨ root.Same cwd := by
      rcases placed with heq | hsame
      · rw [heq] at hrelative ⊢
        exact Or.inl (by simpa using hrelative)
      · exact Or.inr hsame
    rw [segments_join_eq hcwd hroot (hplaced.imp_left And.left),
      segments_join_eq hcwd hroot (hplaced.imp_left And.right)]

/-- On one side of a root, the seeds of two paths are equal exactly if the paths name the same file
from the root. -/
theorem scopeSeed_eq_iff_of_side (hroot : root.isAbsolute = true)
    (side : root.Outside p ↔ root.Outside q) :
    scopeSeed root p = scopeSeed root q ↔ (root.join p).Same (root.join q) := by
  unfold scopeSeed FilePath.Same
  rw [FilePath.relativeTo_eq_iff]
  by_cases hq : root.Outside q
  · have hp := side.mpr hq
    rw [FilePath.stepsFrom_of_outside hp, FilePath.stepsFrom_of_outside hq,
      FilePath.join_of_isAbsolute root hp.1, FilePath.join_of_isAbsolute root hq.1,
      FilePath.segments_of_isAbsolute hp.1, FilePath.segments_of_isAbsolute hq.1]
    simp
  · have hp := mt side.mp hq
    rw [FilePath.segments_join_of_not_outside hroot hp,
      FilePath.segments_join_of_not_outside hroot hq, List.append_cancel_left_eq]

/-- A path outside a root and one that is not have one seed exactly if the second has below the root
the steps that the first has below the root directory. -/
theorem scopeSeed_eq_iff_of_outside (hroot : root.isAbsolute = true) (hp : root.Outside p)
    (hq : ¬root.Outside q) :
    scopeSeed root p = scopeSeed root q ↔ (root.join q).segments = root.segments ++ p.steps := by
  unfold scopeSeed
  rw [FilePath.relativeTo_eq_iff, FilePath.stepsFrom_of_outside hp,
    FilePath.segments_join_of_not_outside hroot hq, List.append_cancel_left_eq]
  exact eq_comm

theorem not_same_of_outside (hroot : root.isAbsolute = true) (hp : root.Outside p)
    (hq : ¬root.Outside q) : ¬(root.join p).Same (root.join q) := by
  intro hsame
  refine hp.2 ?_
  have hfile : p.segments = (root.join q).segments := by
    rw [← FilePath.join_of_isAbsolute root hp.1]
    exact hsame
  rw [hfile, FilePath.segments_join_of_not_outside hroot hq]
  exact List.prefix_append _ _

end

/-- Where the paths of two templates are both relative or both absolute, or the root is the working
directory, scope seeds identify their files on one side of the root.  Files on different sides are
different, but they have one seed if one has below the root the steps that the other has below the
root directory. -/
theorem scopeSeed_eq_iff_same_file {cwd : FilePath} (absolute : cwd.isAbsolute = true)
    (settings : Settings) (p q : FilePath) :
    let root := (settings.rootedIn cwd).root
    (p.isAbsolute = q.isAbsolute ∨ root.Same cwd) →
      ((root.Outside p ↔ root.Outside q) →
        (scopeSeed root p = scopeSeed root q ↔ (cwd.join p).Same (cwd.join q))) ∧
      (root.Outside p → ¬root.Outside q →
        ¬(cwd.join p).Same (cwd.join q) ∧
          (scopeSeed root p = scopeSeed root q ↔
            (cwd.join q).segments = root.segments ++ p.steps)) := by
  intro root placed
  have hroot : root.isAbsolute = true := FilePath.isAbsolute_join absolute settings.root
  have hfiles := same_join_iff absolute hroot placed
  refine ⟨fun side => (scopeSeed_eq_iff_of_side hroot side).trans hfiles, fun houtside hnot => ?_⟩
  refine ⟨mt hfiles.mpr (not_same_of_outside hroot houtside hnot), ?_⟩
  -- a path outside is absolute, so from the root the other one leads where it does
  have hplaced : q.isAbsolute = true ∨ root.Same cwd :=
    placed.imp_left fun heq => heq.symm.trans houtside.1
  rw [← segments_join_eq absolute hroot hplaced]
  exact scopeSeed_eq_iff_of_outside hroot houtside hnot

/-- A file in the root has one seed, as a relative path and as an absolute one, and a file outside
the root another. -/
theorem scopeSeed_eq_iff_in_root :
    let cwd : FilePath := ⟨"/srv/kiln-work"⟩
    ∃ settings, ({} : Options).resolve = .ok settings ∧
      let root := (settings.rootedIn cwd).root
      let relative : FilePath := ⟨"./ui//card.html"⟩
      let absolute : FilePath := ⟨"/srv/kiln-work/ui/card.html"⟩
      let other : FilePath := ⟨"/srv/ui/card.html"⟩
      cwd.isAbsolute = true ∧ root.Same cwd ∧
        ¬root.Outside relative ∧ ¬root.Outside absolute ∧ root.Outside other ∧
        (scopeSeed root relative = scopeSeed root absolute ↔
          (cwd.join relative).Same (cwd.join absolute)) ∧
        scopeSeed root relative = "ui/card.html".toList ∧
        ¬(cwd.join other).Same (cwd.join relative) ∧
        (scopeSeed root other = scopeSeed root relative ↔
          (cwd.join relative).segments = root.segments ++ other.steps) ∧
        scopeSeed root other = "srv/ui/card.html".toList := by
  intro cwd
  refine ⟨_, rfl, ?_⟩
  intro root relative absolute other
  have hsame : root.Same cwd := by decide
  have hrelative : ¬root.Outside relative := by decide
  have habsolute : ¬root.Outside absolute := by decide
  have hother : root.Outside other := by decide
  have hcwd : cwd.isAbsolute = true := by decide
  have hseeds := (scopeSeed_eq_iff_same_file hcwd _ relative absolute (Or.inr hsame)).1
    (iff_of_false hrelative habsolute)
  obtain ⟨hnot, hcross⟩ :=
    (scopeSeed_eq_iff_same_file hcwd _ other relative (Or.inr hsame)).2 hother hrelative
  exact ⟨hcwd, hsame, hrelative, habsolute, hother, hseeds, by decide, hnot, hcross, by decide⟩

/-- Two files have one seed: one outside the root, and one that has the same steps in the root. -/
theorem scopeSeed_of_two_files :
    let cwd : FilePath := ⟨"/srv/kiln-work"⟩
    ∃ settings, ({ root := some ⟨"app"⟩ } : Options).resolve = .ok settings ∧
      let root := (settings.rootedIn cwd).root
      let outside : FilePath := ⟨"/srv/kiln-work/card.html"⟩
      let inside : FilePath := ⟨"/srv/kiln-work/app/srv/kiln-work/card.html"⟩
      scopeSeed root outside = scopeSeed root inside ∧
        ¬(cwd.join outside).Same (cwd.join inside) := by
  intro cwd
  exact ⟨_, rfl, by decide, by decide⟩

end Naming

end ComponentLoader
