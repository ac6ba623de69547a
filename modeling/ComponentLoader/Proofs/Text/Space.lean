import ComponentLoader.Text.Space
import Mathlib.Data.List.TakeWhile
set_option autoImplicit false

/-!
# Laws of trimming

Trimming takes blanks from the ends of a text and nothing else: what is taken is blank, and what is
left has no blank at that end.
-/

namespace ComponentLoader.Text

/-! ## What is taken -/

theorem all_leadingSpace (text : Text) : (leadingSpace text).all isSpace = true :=
  List.all_takeWhile

theorem all_trailingSpace (text : Text) : (trailingSpace text).all isSpace = true := by
  rw [trailingSpace, List.all_reverse]
  exact List.all_takeWhile

theorem leadingSpace_eq_nil {text : Text} (h : ∀ c ∈ text.head?, isSpace c = false) :
    leadingSpace text = [] := by
  cases text with
  | nil => rfl
  | cons c rest => simp [leadingSpace, h c rfl]

theorem trimStart_eq_self {text : Text} (h : ∀ c ∈ text.head?, isSpace c = false) :
    trimStart text = text := by
  have hwhole := leadingSpace_append_trimStart text
  rwa [leadingSpace_eq_nil h, List.nil_append] at hwhole

theorem trailingSpace_eq_nil {text : Text} (h : ∀ c ∈ text.getLast?, isSpace c = false) :
    trailingSpace text = [] := by
  rw [← List.head?_reverse] at h
  have hnil := leadingSpace_eq_nil h
  unfold leadingSpace at hnil
  rw [trailingSpace, hnil, List.reverse_nil]

/-! ## What is left -/

/-- What is dropped from the front goes as far as it can. -/
theorem eq_false_of_head?_dropWhile {p : Char → Bool} {text : Text} {c : Char}
    (h : c ∈ (text.dropWhile p).head?) : p c = false := by
  have hhead := List.head?_dropWhile_not p text
  rw [show (text.dropWhile p).head? = some c from h] at hhead
  simpa using hhead

theorem isSpace_of_head?_trimStart {text : Text} {c : Char} (h : c ∈ (trimStart text).head?) :
    isSpace c = false :=
  eq_false_of_head?_dropWhile h

theorem isSpace_of_getLast?_trimEnd {text : Text} {c : Char} (h : c ∈ (trimEnd text).getLast?) :
    isSpace c = false := by
  rw [trimEnd, List.getLast?_reverse] at h
  exact isSpace_of_head?_trimStart h

/-- Blanks at the front may be trimmed before the end of a text is looked at. -/
theorem mem_getLast?_of_trimStart {text : Text} {c : Char} (h : c ∈ (trimStart text).getLast?) :
    c ∈ text.getLast? := by
  have hwhole := leadingSpace_append_trimStart text
  rw [← hwhole, List.getLast?_append, h]
  rfl

theorem mem_head?_of_trimEnd {text : Text} {c : Char} (h : c ∈ (trimEnd text).head?) :
    c ∈ text.head? := by
  have hwhole := trimEnd_append_trailingSpace text
  rw [← hwhole, List.head?_append, h]
  rfl

/-! ## Texts behind blanks -/

theorem trimStart_append_of_all {blanks : Text} (h : blanks.all isSpace = true) (rest : Text) :
    trimStart (blanks ++ rest) = trimStart rest :=
  List.dropWhile_append_of_pos (List.all_eq_true.mp h)

/-- No blank is taken from behind a character that is not blank. -/
theorem trimStart_append_cons {c : Char} (h : isSpace c = false) (front rest : Text) :
    leadingSpace (front ++ c :: rest) = leadingSpace front ∧
      trimStart (front ++ c :: rest) = trimStart front ++ c :: rest := by
  induction front with
  | nil =>
      have hhead : ∀ d ∈ (c :: rest).head?, isSpace d = false := by
        rintro d ⟨⟩
        exact h
      exact ⟨leadingSpace_eq_nil hhead, trimStart_eq_self hhead⟩
  | cons d front ih =>
      unfold leadingSpace trimStart at ih ⊢
      cases hd : isSpace d with
      | false => simp [hd]
      | true => simpa [hd] using ih

/-! ## Texts that do not end in a blank -/

theorem trimEnd_append {front : Text} (h : ∀ c ∈ front.getLast?, isSpace c = false) (rest : Text) :
    trimEnd (front ++ rest) = front ++ trimEnd rest := by
  have hfront : front.reverse.dropWhile isSpace = front.reverse := by
    rw [← List.head?_reverse] at h
    exact trimStart_eq_self h
  unfold trimEnd
  rw [List.reverse_append, List.dropWhile_append]
  split
  · rename_i hempty
    rw [List.isEmpty_iff.mp hempty, hfront]
    simp
  · simp

/-- Blanks in front of a text that is not blank are not at its end. -/
theorem trimEnd_append_of_ne_nil (front : Text) {rest : Text} (h : trimEnd rest ≠ []) :
    trimEnd (front ++ rest) = front ++ trimEnd rest ∧
      trailingSpace (front ++ rest) = trailingSpace rest := by
  have htrim : trimEnd (front ++ rest) = front ++ trimEnd rest := by
    unfold trimEnd at h ⊢
    rw [List.reverse_append, List.dropWhile_append, if_neg]
    · simp
    · intro hempty
      rw [List.isEmpty_iff.mp hempty] at h
      exact h rfl
  have hwhole := trimEnd_append_trailingSpace (front ++ rest)
  rw [htrim, List.append_assoc, List.append_cancel_left_eq] at hwhole
  exact ⟨htrim, List.append_cancel_left (hwhole.trans (trimEnd_append_trailingSpace rest).symm)⟩

@[simp]
theorem trimEnd_trimEnd (text : Text) : trimEnd (trimEnd text) = trimEnd text := by
  have hlast : ∀ c ∈ (trimEnd text).getLast?, isSpace c = false := fun _ =>
    isSpace_of_getLast?_trimEnd
  have hwhole := trimEnd_append hlast []
  rwa [List.append_nil, show trimEnd [] = [] from rfl, List.append_nil] at hwhole

theorem trailingSpace_append {front : Text} (h : ∀ c ∈ front.getLast?, isSpace c = false)
    (rest : Text) : trailingSpace (front ++ rest) = trailingSpace rest := by
  have hwhole := trimEnd_append_trailingSpace (front ++ rest)
  rw [trimEnd_append h, List.append_assoc, List.append_cancel_left_eq] at hwhole
  exact List.append_cancel_left (hwhole.trans (trimEnd_append_trailingSpace rest).symm)

/-! ## Texts between blanks -/

/-- What is left of a text is found in it between blanks. -/
theorem exists_eq_append_trim (text : Text) :
    ∃ before after, before.all isSpace = true ∧ after.all isSpace = true ∧
      text = before ++ (trim text ++ after) := by
  refine ⟨leadingSpace text, trailingSpace (trimStart text), all_leadingSpace text,
    all_trailingSpace _, ?_⟩
  rw [trim, trimEnd_append_trailingSpace, leadingSpace_append_trimStart]

/-- Blanks around a text that neither begins nor ends with one are trimmed. -/
theorem trim_append_append {before core after : Text} (hbefore : before.all isSpace = true)
    (hafter : after.all isSpace = true) (hfirst : ∀ c ∈ core.head?, isSpace c = false)
    (hlast : ∀ c ∈ core.getLast?, isSpace c = false) : trim (before ++ (core ++ after)) = core := by
  have hend : trimEnd after = [] := by
    have hall : after.reverse.dropWhile isSpace = [] :=
      List.dropWhile_eq_nil_iff.mpr (by simpa using List.all_eq_true.mp hafter)
    rw [trimEnd, hall, List.reverse_nil]
  rw [trim, trimStart_append_of_all hbefore]
  cases core with
  | nil =>
      have hstart : trimStart after = [] :=
        List.dropWhile_eq_nil_iff.mpr (List.all_eq_true.mp hafter)
      rw [List.nil_append, hstart]
      rfl
  | cons c rest =>
      rw [trimStart_eq_self (by simpa using hfirst), trimEnd_append hlast, hend, List.append_nil]

theorem isSpace_of_head?_trim {text : Text} {c : Char} (h : c ∈ (trim text).head?) :
    isSpace c = false :=
  isSpace_of_head?_trimStart (mem_head?_of_trimEnd h)

/-- Blanks around a text do not count when it is trimmed. -/
theorem trim_blanks {before after : Text} (hbefore : before.all isSpace = true)
    (hafter : after.all isSpace = true) (text : Text) :
    trim (before ++ (text ++ after)) = trim text := by
  obtain ⟨first, last, hfirst, hlast, htext⟩ := exists_eq_append_trim text
  have hwhole : before ++ (text ++ after) =
      (before ++ first) ++ (trim text ++ (last ++ after)) := by
    conv => lhs; rw [htext]
    simp
  rw [hwhole, trim_append_append (by simp [hbefore, hfirst]) (by simp [hlast, hafter])
    (fun _ => isSpace_of_head?_trim) fun _ => isSpace_of_getLast?_trimEnd]

end ComponentLoader.Text
