import ComponentLoader.Text.Line
set_option autoImplicit false

/-!
# Laws of lines (SPEC §4.4)

A text that is written line by line has these lines, if none of them holds a line feed or ends with
a carriage return, which would count as part of the line end.
-/

namespace ComponentLoader.Text

theorem splitAfterNewline_append_cons {line : Text} (h : '\n' ∉ line) (rest : Text) :
    splitAfterNewline (line ++ '\n' :: rest) = (line ++ ['\n']) :: splitAfterNewline rest := by
  induction line with
  | nil =>
      cases rest with
      | nil => rfl
      | cons d others => rw [List.nil_append, splitAfterNewline, if_pos rfl]; rfl
  | cons c others ih =>
      obtain ⟨hc, hothers⟩ := not_or.mp (fun hmem => h (List.mem_cons.mpr hmem))
      have hne : c ≠ '\n' := fun heq => hc heq.symm
      -- what follows the first character is not empty, for it holds the line feed
      obtain ⟨d, tail, htail⟩ : ∃ d tail, others ++ '\n' :: rest = d :: tail := by
        cases others with
        | nil => exact ⟨_, _, rfl⟩
        | cons d tail => exact ⟨_, _, rfl⟩
      rw [List.cons_append, htail, splitAfterNewline, if_neg hne, ← htail, ih hothers]
      rfl

/-- A text with no line feed is one line, unless it is empty. -/
theorem splitAfterNewline_of_not_mem {text : Text} (h : '\n' ∉ text) (hne : text ≠ []) :
    splitAfterNewline text = [text] := by
  induction text with
  | nil => exact absurd rfl hne
  | cons c rest ih =>
      obtain ⟨hc, hrest⟩ := not_or.mp (fun hmem => h (List.mem_cons.mpr hmem))
      have hnot : c ≠ '\n' := fun heq => hc heq.symm
      cases rest with
      | nil => rfl
      | cons d others => rw [splitAfterNewline, if_neg hnot, ih hrest (List.cons_ne_nil d others)]

/-- A text is read line by line. -/
theorem line_induction {motive : Text → Prop} (last : ∀ text, '\n' ∉ text → motive text)
    (cons : ∀ line rest, '\n' ∉ line → motive rest → motive (line ++ '\n' :: rest)) (text : Text) :
    motive text := by
  induction hsize : text.length using Nat.strongRecOn generalizing text with
  | ind size ih =>
      by_cases hmem : '\n' ∈ text
      · obtain ⟨line, rest, rfl, hline⟩ := List.eq_append_cons_of_mem hmem
        exact cons line rest hline (ih rest.length (by simp [← hsize]; omega) rest rfl)
      · exact last text hmem

/-- Lines of different texts do not merge as long as the first text ends its last line. -/
theorem splitAfterNewline_append {front : Text} (h : ∀ c ∈ front.getLast?, c = '\n') (rest : Text) :
    splitAfterNewline (front ++ rest) = splitAfterNewline front ++ splitAfterNewline rest := by
  induction front using line_induction with
  | last text hnone =>
      cases hlast : text.getLast? with
      | none =>
          obtain rfl := List.getLast?_eq_none_iff.mp hlast
          rfl
      | some c =>
          obtain rfl := h c hlast
          exact absurd (List.mem_of_getLast? hlast) hnone
  | cons line others hline ih =>
      have hothers : ∀ c ∈ others.getLast?, c = '\n' := by
        intro c hc
        refine h c ?_
        cases others with
        | nil => cases hc
        | cons d tail => simpa using hc
      rw [List.append_assoc, List.cons_append, splitAfterNewline_append_cons hline,
        splitAfterNewline_append_cons hline, ih hothers]
      rfl

theorem dropLineEnd_append {line : Text} (h : line.getLast? ≠ some '\r') :
    dropLineEnd (line ++ ['\n']) = line := by
  have hnewline : dropTail? "\n" (line ++ ['\n']) = some line := dropTail?_eq_some_iff.mpr rfl
  have hreturn : dropTail? "\r" line = none := by
    cases hdrop : dropTail? "\r" line with
    | none => rfl
    | some front =>
        rw [dropTail?_eq_some_iff.mp hdrop] at h
        exact absurd (List.getLast?_concat ..) h
  unfold dropLineEnd
  rw [hnewline]
  simp only [hreturn, Option.getD_none]

theorem lines_append_cons {line : Text} (hnewline : '\n' ∉ line)
    (hreturn : line.getLast? ≠ some '\r')
    (rest : Text) : lines (line ++ '\n' :: rest) = line :: lines rest := by
  unfold lines
  rw [splitAfterNewline_append_cons hnewline, List.map_cons, dropLineEnd_append hreturn]

end ComponentLoader.Text
