import ComponentLoader.Text.Basic
import Mathlib.Data.List.Infix
set_option autoImplicit false

/-!
# Laws of seeking

What is found in a text is the first occurrence of a pattern, so it stays what it is when the text
goes on, and a text without the pattern can be passed over if none can begin in it.
-/

namespace ComponentLoader.Text

variable {pattern : Text}

theorem isPrefix_of_seek {text before found : Text} (h : seek pattern text = some (before, found)) :
    pattern <+: found := by
  induction text generalizing before with
  | nil =>
      unfold seek at h
      split at h
      · rename_i hempty
        rw [List.isEmpty_iff.mp hempty]
        exact List.nil_prefix
      · cases h
  | cons c rest ih =>
      unfold seek at h
      split at h
      · rename_i hstarts
        cases h
        exact List.isPrefixOf_iff_prefix.mp hstarts
      · simp only [Option.map_eq_some_iff, Prod.exists, Prod.mk.injEq] at h
        obtain ⟨b, f, hseek, -, rfl⟩ := h
        exact ih hseek

theorem seek_eq_none_iff {text : Text} : seek pattern text = none ↔ ¬pattern <:+: text := by
  induction text with
  | nil => simp [seek, List.infix_nil]
  | cons c rest ih =>
      unfold seek
      rw [List.infix_cons_iff, ← List.isPrefixOf_iff_prefix]
      split
      · rename_i hstarts
        simp [hstarts]
      · rename_i hstarts
        simp [hstarts, ih]

/-- The first occurrence stays what it is when the text goes on. -/
theorem seek_append_of_eq_some {text before found : Text}
    (h : seek pattern text = some (before, found)) (more : Text) :
    seek pattern (text ++ more) = some (before, found ++ more) := by
  induction text generalizing before with
  | nil =>
      unfold seek at h
      split at h
      · rename_i hempty
        cases h
        rw [List.isEmpty_iff.mp hempty]
        cases more <;> rfl
      · cases h
  | cons c rest ih =>
      unfold seek at h
      rw [List.cons_append, seek]
      split at h
      · rename_i hstarts
        cases h
        have hlong : pattern <+: c :: (rest ++ more) :=
          (List.isPrefixOf_iff_prefix.mp hstarts).trans (List.prefix_append _ _)
        rw [if_pos (List.isPrefixOf_iff_prefix.mpr hlong), List.cons_append]
      · rename_i hstarts
        simp only [Option.map_eq_some_iff, Prod.exists, Prod.mk.injEq] at h
        obtain ⟨b, f, hseek, rfl, rfl⟩ := h
        -- the pattern is found further on, so it is too short to go past the end of the text
        have hshort : pattern.length ≤ (c :: rest).length := by
          have hfound := (isPrefix_of_seek hseek).length_le
          have hrest := congrArg List.length (seek_eq_some hseek)
          simp only [List.length_append, List.length_cons] at hrest ⊢
          omega
        have hlong : ¬pattern <+: c :: (rest ++ more) := fun hlong =>
          hstarts (List.isPrefixOf_iff_prefix.mpr
            (List.prefix_of_prefix_length_le hlong (List.prefix_append (c :: rest) more) hshort))
        rw [if_neg fun hlong' => hlong (List.isPrefixOf_iff_prefix.mp hlong'), ih hseek]
        rfl

/-- A text can be passed over if the pattern begins nowhere in it. -/
theorem seek_append_of_forall {front rest : Text}
    (h : ∀ before behind, front = before ++ behind → behind ≠ [] → ¬pattern <+: behind ++ rest) :
    seek pattern (front ++ rest) =
      (seek pattern rest).map fun (before, found) => (front ++ before, found) := by
  induction front with
  | nil =>
      rw [List.nil_append]
      cases seek pattern rest <;> rfl
  | cons c front ih =>
      have hstarts : ¬pattern <+: c :: (front ++ rest) := h [] (c :: front) rfl (by simp)
      have hrest := ih fun before behind heq => h (c :: before) behind (congrArg (c :: ·) heq)
      rw [List.cons_append, seek,
        if_neg fun hstarts' => hstarts (List.isPrefixOf_iff_prefix.mp hstarts'), hrest]
      cases seek pattern rest <;> rfl

/-- The pattern is in the end of a text, or it takes all of it with something of the rest. -/
theorem infix_or_exists_of_isPrefix {behind rest : Text} (h : pattern <+: behind ++ rest)
    (before : Text) :
    pattern <:+: before ++ behind ∨
      ∃ c others, pattern = behind ++ c :: others ∧ c ∈ rest.head? := by
  rcases List.prefix_or_prefix_of_prefix h (List.prefix_append behind rest) with hin | ⟨more, rfl⟩
  · exact Or.inl (hin.isInfix.trans (List.suffix_append before behind).isInfix)
  · rw [List.prefix_append_right_inj] at h
    cases more with
    | nil => exact Or.inl (by simpa using (List.suffix_append before behind).isInfix)
    | cons c others =>
        obtain ⟨tail, rfl⟩ := h
        exact Or.inr ⟨c, others, rfl, rfl⟩

/-- A text can be passed over if the pattern is not in it and does not begin at its end. -/
theorem seek_append_of_not_infix {front : Text} (h : ¬pattern <:+: front)
    (hlast : ∀ c ∈ front.getLast?, c ∉ pattern) (rest : Text) :
    seek pattern (front ++ rest) =
      (seek pattern rest).map fun (before, found) => (front ++ before, found) := by
  refine seek_append_of_forall fun before behind hfront hne hstarts => ?_
  subst hfront
  rcases infix_or_exists_of_isPrefix hstarts before with hin | ⟨c, others, rfl, -⟩
  · exact h hin
  · obtain ⟨last, hend⟩ : ∃ last, behind.getLast? = some last := by
      cases hend : behind.getLast? with
      | none => exact absurd (List.getLast?_eq_none_iff.mp hend) hne
      | some last => exact ⟨last, rfl⟩
    refine hlast last ?_ (List.mem_append_left _ (List.mem_of_getLast? hend))
    rw [List.getLast?_append, hend]
    rfl

/-- Nor does a pattern begin in it that has no place for the character behind it. -/
theorem seek_append_cons_of_not_infix {front : Text} (h : ¬pattern <:+: front) {c : Char}
    (hc : c ∉ pattern) (rest : Text) :
    seek pattern (front ++ c :: rest) =
      (seek pattern (c :: rest)).map fun (before, found) => (front ++ before, found) := by
  refine seek_append_of_forall fun before behind hfront _ hstarts => ?_
  subst hfront
  rcases infix_or_exists_of_isPrefix hstarts before with hin | ⟨d, others, rfl, hd⟩
  · exact h hin
  · obtain rfl : c = d := Option.some.inj hd
    exact hc (by simp)

end ComponentLoader.Text
