import ComponentLoader.Proofs.Text.Basic
import ComponentLoader.Proofs.Text.Space
set_option autoImplicit false

/-!
# Laws of words (SPEC §4.4)

A blank ends a word, so the words of a text are those in front of a blank and those behind it
(`words_append_cons`), and what else is known of words follows from this equation.  Words joined by
single spaces are read back, and joining the words of a text gives the text without the blanks
around it, with one space for each run of blanks in it (`join_words`).
-/

namespace ComponentLoader.Text

/-! ## Words around a blank -/

theorem words_cons_of_isSpace {c : Char} (h : isSpace c = true) (rest : Text) :
    words (c :: rest) = words rest := by
  cases rest with
  | nil => simp [words, h]
  | cons d others => rw [words, if_pos h]

theorem words_cons_cons {c d : Char} (hc : isSpace c = false) (hd : isSpace d = false)
    (rest : Text) :
    words (c :: d :: rest) = consFirst c (words (d :: rest)) := by
  rw [words, if_neg (by simp [hc]), if_neg (by simp [hd])]

theorem consFirst_append (c : Char) {front : List Text} (h : front ≠ []) (others : List Text) :
    consFirst c (front ++ others) = consFirst c front ++ others := by
  obtain ⟨word, rest, rfl⟩ := List.exists_cons_of_ne_nil h
  rfl

theorem consFirst_ne_nil (c : Char) (words : List Text) : consFirst c words ≠ [] := by
  cases words <;> simp [consFirst]

/-- A text has no words exactly if it is blank. -/
theorem words_eq_nil_iff {text : Text} : words text = [] ↔ text.all isSpace = true := by
  fun_induction words text with
  | case1 => simp
  | case2 c hc => simp [hc]
  | case3 c hc => simp [hc]
  | case4 c d rest hc ih => simpa [hc] using ih
  | case5 c d rest hc hd ih => simp [hc]
  | case6 c d rest hc hd ih => simp [hc, consFirst_ne_nil]

/-- The words of a text are those in front of a blank and those behind it. -/
theorem words_append_cons {c : Char} (h : isSpace c = true) (front rest : Text) :
    words (front ++ c :: rest) = words front ++ words rest := by
  fun_induction words front with
  | case1 => exact words_cons_of_isSpace h rest
  | case2 d hd => rw [List.singleton_append, words_cons_of_isSpace hd, words_cons_of_isSpace h]; rfl
  | case3 d hd =>
      rw [List.singleton_append, words, if_neg hd, if_pos h, words_cons_of_isSpace h]
      rfl
  | case4 d e others hd ih =>
      rw [List.cons_append, words_cons_of_isSpace hd]
      exact ih
  | case5 d e others hd he ih =>
      rw [List.cons_append, List.cons_append, words, if_neg hd, if_pos he]
      exact congrArg ([d] :: ·) ih
  | case6 d e others hd he ih =>
      have hne : words (e :: others) ≠ [] := by simp [words_eq_nil_iff, he]
      rw [List.cons_append, List.cons_append,
        words_cons_cons (Bool.eq_false_iff.mpr hd) (Bool.eq_false_iff.mpr he),
        ← consFirst_append d hne]
      exact congrArg (consFirst d) ih

theorem words_blanks_append {blanks : Text} (h : blanks.all isSpace = true) (rest : Text) :
    words (blanks ++ rest) = words rest := by
  induction blanks with
  | nil => rfl
  | cons c others ih =>
      rw [List.all_cons, Bool.and_eq_true] at h
      rw [List.cons_append, words_cons_of_isSpace h.1, ih h.2]

theorem words_append_blanks {blanks : Text} (h : blanks.all isSpace = true) (front : Text) :
    words (front ++ blanks) = words front := by
  cases blanks with
  | nil => rw [List.append_nil]
  | cons c others =>
      rw [List.all_cons, Bool.and_eq_true] at h
      rw [words_append_cons h.1, words_eq_nil_iff.mpr h.2, List.append_nil]

/-- Blanks around a text hold no words. -/
@[simp]
theorem words_trim (text : Text) : words (trim text) = words text := by
  obtain ⟨before, after, hbefore, hafter, htext⟩ := exists_eq_append_trim text
  conv => rhs; rw [htext]
  rw [words_blanks_append hbefore, words_append_blanks hafter]

/-! ## Words by themselves -/

/-- The text is one word. -/
def IsWord (text : Text) : Prop :=
  text ≠ [] ∧ ∀ c ∈ text, isSpace c = false

theorem words_of_isWord {word : Text} (h : IsWord word) : words word = [word] := by
  obtain ⟨hne, hchars⟩ := h
  induction word with
  | nil => exact absurd rfl hne
  | cons c rest ih =>
      obtain ⟨hc, hrest⟩ := List.forall_mem_cons.mp hchars
      cases rest with
      | nil => simp [words, hc]
      | cons d others =>
          rw [words_cons_cons hc (hrest d List.mem_cons_self), ih (List.cons_ne_nil d others) hrest]
          rfl

theorem isWord_of_mem_words {text word : Text} (h : word ∈ words text) : IsWord word := by
  fun_induction words text generalizing word with
  | case1 => cases h
  | case2 c hc => cases h
  | case3 c hc =>
      rw [List.mem_singleton.mp h]
      exact ⟨List.cons_ne_nil c [], by simpa using hc⟩
  | case4 c d rest hc ih => exact ih h
  | case5 c d rest hc hd ih =>
      rcases List.mem_cons.mp h with rfl | hmem
      · exact ⟨List.cons_ne_nil c [], by simpa using hc⟩
      · exact ih hmem
  | case6 c d rest hc hd ih =>
      cases hwords : words (d :: rest) with
      | nil =>
          rw [hwords] at h
          rw [List.mem_singleton.mp h]
          exact ⟨List.cons_ne_nil c [], by simpa using hc⟩
      | cons first others =>
          rw [hwords] at h ih
          rcases List.mem_cons.mp h with rfl | hmem
          · have hfirst := (ih List.mem_cons_self).2
            exact ⟨List.cons_ne_nil c first, List.forall_mem_cons.mpr ⟨by simpa using hc, hfirst⟩⟩
          · exact ih (List.mem_cons_of_mem first hmem)

/-- Words that were joined by single spaces are read back. -/
theorem words_join {pieces : List Text} (h : ∀ piece ∈ pieces, IsWord piece) :
    words (join " " pieces) = pieces := by
  induction pieces with
  | nil => rfl
  | cons piece others ih =>
      obtain ⟨hpiece, hothers⟩ := List.forall_mem_cons.mp h
      cases others with
      | nil => rw [join_singleton, words_of_isWord hpiece]
      | cons next more =>
          have hspace : (" " ++ join " " (next :: more) : Text) = ' ' :: join " " (next :: more) :=
            rfl
          rw [join_cons_cons, hspace, words_append_cons (by decide), words_of_isWord hpiece,
            ih hothers]
          rfl

/-! ## Runs of blanks -/

/-- The text with one space in the place of every run of blanks. -/
def collapse : Text → Text
  | [] => []
  | [c] => if isSpace c then [' '] else [c]
  | c :: d :: rest =>
    if isSpace c then
      if isSpace d then collapse (d :: rest) else ' ' :: collapse (d :: rest)
    else c :: collapse (d :: rest)

theorem collapse_cons {c : Char} (h : isSpace c = false) (rest : Text) :
    collapse (c :: rest) = c :: collapse rest := by
  cases rest with
  | nil => simp [collapse, h]
  | cons d others => rw [collapse, if_neg (by simp [h])]

/-- A run of blanks becomes one space, whatever the blanks are. -/
theorem collapse_append {blanks rest : Text} (hne : blanks ≠ [])
    (hblanks : blanks.all isSpace = true) (hrest : ∀ c ∈ rest.head?, isSpace c = false) :
    collapse (blanks ++ rest) = ' ' :: collapse rest := by
  induction blanks with
  | nil => exact absurd rfl hne
  | cons c others ih =>
      rw [List.all_cons, Bool.and_eq_true] at hblanks
      cases others with
      | nil =>
          cases rest with
          | nil => simp [collapse, hblanks.1]
          | cons d more =>
              have hd : isSpace d = false := hrest d rfl
              simp [collapse, hblanks.1, hd]
      | cons d more =>
          have hd : isSpace d = true := by
            rw [List.all_cons, Bool.and_eq_true] at hblanks
            exact hblanks.2.1
          rw [List.cons_append, List.cons_append, collapse, if_pos hblanks.1, if_pos hd]
          exact ih (List.cons_ne_nil d more) hblanks.2

theorem join_consFirst (glue : Text) (c : Char) {words : List Text} (h : words ≠ []) :
    join glue (consFirst c words) = c :: join glue words := by
  obtain ⟨word, others, rfl⟩ := List.exists_cons_of_ne_nil h
  exact join_append_cons glue [c] word others

/-- A text is read by single characters where they are not blank, and by whole runs of blanks. -/
theorem run_induction {motive : Text → Prop} (nil : motive [])
    (plain : ∀ c rest, isSpace c = false → motive rest → motive (c :: rest))
    (run : ∀ blanks rest, blanks ≠ [] → blanks.all isSpace = true →
      (∀ c ∈ rest.head?, isSpace c = false) → motive rest → motive (blanks ++ rest))
    (text : Text) : motive text := by
  induction hsize : text.length using Nat.strongRecOn generalizing text with
  | ind size ih =>
      cases text with
      | nil => exact nil
      | cons c rest =>
          rw [List.length_cons] at hsize
          cases hc : isSpace c with
          | false => exact plain c rest hc (ih rest.length (by omega) rest rfl)
          | true =>
              have hblanks : leadingSpace (c :: rest) = c :: leadingSpace rest := by
                simp [leadingSpace, hc]
              have hbehind : trimStart (c :: rest) = trimStart rest := by simp [trimStart, hc]
              have hlength : (trimStart rest).length ≤ rest.length :=
                (List.dropWhile_sublist isSpace).length_le
              rw [← leadingSpace_append_trimStart (c :: rest)]
              refine run _ _ ?_ (all_leadingSpace (c :: rest))
                (fun _ => isSpace_of_head?_trimStart) ?_
              · rw [hblanks]
                exact List.cons_ne_nil c _
              · rw [hbehind]
                exact ih _ (by omega) _ rfl

theorem words_ne_nil {text : Text} (hne : text ≠ [])
    (h : ∀ c ∈ text.getLast?, isSpace c = false) : words text ≠ [] := by
  rw [ne_eq, words_eq_nil_iff, List.all_eq_true]
  intro hblank
  have hlast := h _ (List.getLast?_eq_some_getLast hne)
  rw [hblank _ (List.getLast_mem hne)] at hlast
  cases hlast

/-- The words of a text that does not end in a blank, joined by spaces, are the text with its runs
of blanks made spaces, but for a run at its front. -/
theorem collapse_eq {text : Text} (h : ∀ c ∈ text.getLast?, isSpace c = false) :
    collapse text =
      (if text.head?.any isSpace then " ".toList else []) ++ join " " (words text) := by
  induction text using run_induction with
  | nil => rfl
  | plain c rest hc ih =>
      cases rest with
      | nil => simp [collapse, words, hc]
      | cons d others =>
          have hlast : ∀ e ∈ (d :: others).getLast?, isSpace e = false := by simpa using h
          have hne : words (d :: others) ≠ [] := words_ne_nil (List.cons_ne_nil d others) hlast
          rw [collapse_cons hc, ih hlast]
          cases hd : isSpace d with
          | false =>
              rw [words_cons_cons hc hd, join_consFirst _ _ hne]
              simp [hc, hd]
          | true =>
              have hwords : words (c :: d :: others) = [c] :: words (d :: others) := by
                rw [words, if_neg (by simp [hc]), if_pos hd]
              rw [hwords, join_cons_of_ne_nil _ _ hne]
              simp [hc, hd]
  | run blanks rest hne hblanks hrest ih =>
      have hnil : rest ≠ [] := by
        rintro rfl
        rw [List.append_nil] at h
        exact words_ne_nil hne h (words_eq_nil_iff.mpr hblanks)
      have hlast : ∀ c ∈ rest.getLast?, isSpace c = false := by
        intro c hc
        exact h c (by rw [List.getLast?_append, hc]; rfl)
      obtain ⟨b, blanks, rfl⟩ := List.exists_cons_of_ne_nil hne
      obtain ⟨c, rest, rfl⟩ := List.exists_cons_of_ne_nil hnil
      have hb : isSpace b = true := List.all_eq_true.mp hblanks b List.mem_cons_self
      rw [collapse_append hne hblanks hrest, ih hlast, words_blanks_append hblanks]
      simp [hb, hrest c rfl]

/-- Joined by spaces, the words of a text are what is left when it is trimmed, with its runs
of blanks made spaces. -/
theorem join_words (text : Text) : join " " (words text) = collapse (trim text) := by
  have hfirst : (trim text).head?.any isSpace = false := by
    cases hhead : (trim text).head? with
    | none => rfl
    | some c => simpa using isSpace_of_head?_trim hhead
  have hlast : ∀ c ∈ (trim text).getLast?, isSpace c = false := fun _ => isSpace_of_getLast?_trimEnd
  rw [collapse_eq hlast, hfirst, words_trim]
  rfl

example : join " " (words " a\t\n\u00A0b \r\nc ") = "a b c".toList := by decide

end ComponentLoader.Text
