import ComponentLoader.FilePath.Basic
set_option autoImplicit false

/-!
# The order of paths (SPEC §3)

Paths are ordered segment by segment, so two paths compare equal exactly when they are spellings of
one path.  The order is transitive, which is what a map with paths as keys asks of it.
-/

namespace ComponentLoader.FilePath

namespace Segment

/-- The text that decides between two segments of one kind. -/
def nameText : Segment → Text
  | name text => text
  | _ => []

/-- Segments are ordered by kind and then by name. -/
theorem order_eq_compareLex :
    order = compareLex (compareOn rank) (compareOn nameText) := by
  funext a b
  cases a <;> cases b <;> rfl

instance : Std.TransCmp order := by
  rw [order_eq_compareLex]
  infer_instance

instance : Std.LawfulEqCmp order where
  eq_of_compare {a b} h := by
    rw [order_eq_compareLex, compareLex_eq_eq] at h
    obtain ⟨hrank, hname⟩ := h
    cases a <;> cases b <;> simp [compareOn, rank, nameText] at hrank hname ⊢
    exact hname

end Segment

instance : Std.TransOrd FilePath where
  eq_swap {p q} :=
    show List.compareLex Segment.order p.segments q.segments =
        (List.compareLex Segment.order q.segments p.segments).swap from
      Std.OrientedCmp.eq_swap
  isLE_trans {p q r} hpq hqr := by
    change (List.compareLex Segment.order p.segments q.segments).isLE = true at hpq
    change (List.compareLex Segment.order q.segments r.segments).isLE = true at hqr
    show (List.compareLex Segment.order p.segments r.segments).isLE = true
    exact Std.TransCmp.isLE_trans hpq hqr

/-- Spellings of one path, and no others, share an entry of a map. -/
theorem compare_eq_iff_same {p q : FilePath} : compare p q = .eq ↔ p.Same q := by
  show List.compareLex Segment.order p.segments q.segments = .eq ↔ p.segments = q.segments
  exact Std.LawfulEqCmp.compare_eq_iff_eq

end ComponentLoader.FilePath
