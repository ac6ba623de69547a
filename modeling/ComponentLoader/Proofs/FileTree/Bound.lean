import ComponentLoader.FileTree.Basic
import Mathlib.Data.List.Nodup
import Mathlib.Data.List.Perm.Subperm
import Mathlib.Data.Nat.Digits.Lemmas
set_option autoImplicit false

/-!
# How many files there can be (SPEC §4.3)

A path leads to a file only if it is shorter than `FileTree.pathLimit`, and there are only so many
texts of that length.  They are counted by the numbers they are written as, a digit for each
character: no digit is zero, so different texts are different numbers.
-/

namespace ComponentLoader

namespace Text

/-- The base in which texts are written as numbers: one digit more than there are characters. -/
def codeBase : Nat := 0x110001

/-- A text as a number. -/
def code (text : Text) : Nat :=
  Nat.ofDigits codeBase (text.map fun c => c.toNat + 1)

theorem toNat_lt_codeBase (c : Char) : c.toNat + 1 < codeBase := by
  have hvalid := c.valid
  simp only [UInt32.isValidChar, Nat.isValidChar] at hvalid
  have hcode : c.val.toNat = c.toNat := rfl
  unfold codeBase
  omega

theorem code_injective : Function.Injective code := by
  intro a b h
  have hdigits (text : Text) :
      Nat.digits codeBase (code text) = text.map fun c => c.toNat + 1 := by
    refine Nat.digits_ofDigits codeBase (by decide) _ (fun digit hmem => ?_) fun hne => ?_
    · obtain ⟨c, -, rfl⟩ := List.mem_map.mp hmem
      exact toNat_lt_codeBase c
    · obtain ⟨c, -, hlast⟩ := List.mem_map.mp (List.getLast_mem hne)
      rw [← hlast]
      exact Nat.succ_ne_zero _
  have hmap : (a.map fun c => c.toNat + 1) = b.map fun c => c.toNat + 1 := by
    rw [← hdigits, ← hdigits, h]
  refine List.map_injective_iff.mpr (fun c d hcd => ?_) hmap
  exact Char.toNat_inj.mp (Nat.succ.inj hcd)

theorem code_lt {text : Text} {n : Nat} (h : text.length ≤ n) : code text < codeBase ^ n := by
  have hlt : code text < codeBase ^ text.length := by
    have hdigits := Nat.ofDigits_lt_base_pow_length (b := codeBase)
      (l := text.map fun c => c.toNat + 1) (by decide) fun digit hmem => ?_
    · rwa [List.length_map] at hdigits
    · obtain ⟨c, -, rfl⟩ := List.mem_map.mp hmem
      exact toNat_lt_codeBase c
  exact hlt.trans_le (Nat.pow_le_pow_right (by decide) h)

theorem length_le_byteSize (text : Text) : text.length ≤ byteSize text := by
  induction text with
  | nil => exact Nat.le_refl 0
  | cons c rest ih =>
      have hsize := c.utf8Size_pos
      simp only [List.length_cons, byteSize_cons]
      omega

end Text

namespace FileTree

/-- The path of a file is a text of fewer than `pathLimit` characters. -/
theorem code_lt_of_isFile {tree : FileTree} {path : FilePath} (h : tree.isFile path = true) :
    Text.code path.text < Text.codeBase ^ (pathLimit - 1) := by
  have hshort : Text.byteSize path.text < pathLimit := by
    by_contra hlong
    rw [isFile_eq_false_of_pathLimit_le (Nat.not_lt.mp hlong)] at h
    cases h
  have hlength := Text.length_le_byteSize path.text
  exact Text.code_lt (by omega)

/-- Files that are told apart by something that their paths have are not more
than there are paths. -/
theorem length_le_of_isFile (tree : FileTree) {α : Type} (ofPath : FilePath → α) {labels : List α}
    (hnodup : labels.Nodup)
    (hfile : ∀ label ∈ labels, ∃ path, tree.isFile path = true ∧ ofPath path = label) :
    labels.length ≤ Text.codeBase ^ (pathLimit - 1) := by
  choose! path hpath using hfile
  have hcodes : (labels.map fun label => Text.code (path label).text).Nodup := by
    refine List.Nodup.map_on (fun a ha b hb hab => ?_) hnodup
    have htext : (path a).text = (path b).text := Text.code_injective hab
    have hsame : path a = path b := by
      cases hpa : path a
      cases hpb : path b
      simpa [hpa, hpb] using htext
    rw [← (hpath a ha).2, ← (hpath b hb).2, hsame]
  have hrange : (labels.map fun label => Text.code (path label).text) ⊆
      List.range (Text.codeBase ^ (pathLimit - 1)) := by
    intro n hmem
    obtain ⟨label, hlabel, rfl⟩ := List.mem_map.mp hmem
    exact List.mem_range.mpr (code_lt_of_isFile (hpath label hlabel).1)
  have hlength := (List.subperm_of_subset hcodes hrange).length_le
  rwa [List.length_map, List.length_range] at hlength

end FileTree

end ComponentLoader
