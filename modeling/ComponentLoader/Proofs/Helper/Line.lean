import ComponentLoader.Helper.Exports
import ComponentLoader.Proofs.Helper.Word
set_option autoImplicit false

/-!
# Where exports begin (SPEC §4.4)

An export begins with a keyword that is the first word of a line.  So a text can be read for exports
from its front as soon as it is known whether a line begins there, and of what has been passed over
only that matters: blanks keep or make the begin of a line, while words and other characters end it.
The inside of an export is read in this way too, as if it were code, and gives names of its own only
where the keyword is the first word of one of its lines.
-/

namespace ComponentLoader.Exports

/-- The names that are exported in a text; `atStart` says whether a line begins at its front. -/
def namesFrom (atStart : Bool) (text : Text) : List Text :=
  (exportTails atStart text).flatMap namesAfter

/-- The names of the export that begins at the front of a text, if one does. -/
def namesHere (text : Text) : List Text :=
  if startsExport (Text.upTo '\n' text) then
    namesAfter ((Text.trimStart text).drop keyword.text.length)
  else []

variable {text rest : Text}

/-! ## Passing over -/

theorem namesFrom_true (text : Text) :
    namesFrom true text = namesHere text ++ namesFrom false text := by
  cases text with
  | nil => rfl
  | cons c rest =>
      unfold namesFrom namesHere
      simp only [exportTails, Bool.true_and, Bool.false_and, Bool.false_eq_true, if_false,
        List.nil_append, List.flatMap_append]
      split
      · rw [List.flatMap_singleton]
        rfl
      · rfl

theorem namesFrom_cons (c : Char) (rest : Text) :
    namesFrom false (c :: rest) = namesFrom (c = '\n') rest := by
  simp [namesFrom, exportTails]

/-- Within a line nothing begins. -/
theorem namesFrom_append (h : '\n' ∉ text) (rest : Text) :
    namesFrom false (text ++ rest) = namesFrom false rest := by
  induction text with
  | nil => rfl
  | cons c others ih =>
      obtain ⟨hc, hothers⟩ := not_or.mp (fun hmem => h (List.mem_cons.mpr hmem))
      have hne : c ≠ '\n' := fun heq => hc heq.symm
      rw [List.cons_append, namesFrom_cons, decide_eq_false hne, ih hothers]

/-! ## Blanks -/

theorem namesHere_newline (rest : Text) : namesHere ('\n' :: rest) = [] := rfl

/-- What begins behind a blank of the same line begins in front of it. -/
theorem namesHere_cons_blank {c : Char} (hc : Text.isSpace c = true) (hline : c ≠ '\n')
    (rest : Text) :
    namesHere (c :: rest) = namesHere rest := by
  have hupTo : Text.upTo '\n' (c :: rest) = c :: Text.upTo '\n' rest := by simp [Text.upTo, hline]
  have htrim (text : Text) : Text.trimStart (c :: text) = Text.trimStart text := by
    simp [Text.trimStart, hc]
  unfold namesHere startsExport
  rw [hupTo, htrim, htrim]

theorem namesFrom_cons_blank {c : Char} (hc : Text.isSpace c = true) (atStart : Bool)
    (rest : Text) :
    namesFrom atStart (c :: rest) = namesFrom (atStart || c = '\n') rest := by
  cases atStart with
  | false => exact namesFrom_cons c rest
  | true =>
      rw [namesFrom_true, namesFrom_cons, Bool.true_or]
      by_cases hline : c = '\n'
      · rw [hline, namesHere_newline]
        rfl
      · rw [namesHere_cons_blank hc hline, decide_eq_false hline, ← namesFrom_true]

/-- A line begins behind blanks if it did in front of them, or if one of them is a line end. -/
theorem namesFrom_blanks (blanks : Blanks) (atStart : Bool) (rest : Text) :
    namesFrom atStart (blanks.text ++ rest) =
      namesFrom (atStart || blanks.text.contains '\n') rest := by
  obtain ⟨text, h⟩ := blanks
  induction text generalizing atStart with
  | nil => simp
  | cons c others ih =>
      rw [List.all_cons, Bool.and_eq_true] at h
      rw [List.cons_append, namesFrom_cons_blank h.1, ih _ h.2, List.contains_cons, Bool.or_assoc,
        Bool.beq_comm]
      rfl

/-! ## Words and other characters -/

/-- Nothing begins at a character that is neither blank nor the first letter of the keyword. -/
theorem namesFrom_cons_of_ne {c : Char} (hspace : Text.isSpace c = false) (hletter : c ≠ 'e')
    (atStart : Bool) (rest : Text) : namesFrom atStart (c :: rest) = namesFrom false rest := by
  have hline : c ≠ '\n' := by
    rintro rfl
    cases hspace
  have hfalse : namesFrom false (c :: rest) = namesFrom false rest := by
    rw [namesFrom_cons, decide_eq_false hline]
  cases atStart with
  | false => exact hfalse
  | true =>
      have hupTo : Text.upTo '\n' (c :: rest) = c :: Text.upTo '\n' rest := by
        simp [Text.upTo, hline]
      have hlead : Text.dropLead? "export" (c :: Text.upTo '\n' rest) = none :=
        if_neg (Ne.symm hletter)
      have hnone : startsExport (Text.upTo '\n' (c :: rest)) = false := by
        rw [hupTo, startsExport, Text.trimStart_eq_self (by rintro d ⟨⟩; exact hspace),
          Text.afterKeyword?, hlead]
        rfl
      rw [namesFrom_true, namesHere, hnone, hfalse]
      rfl

/-- At a word something begins only if the word is the keyword. -/
theorem namesHere_word (word : Word) (hrest : Text.EndsWord rest) :
    namesHere (word.text ++ rest) = if word.text = keyword.text then namesAfter rest else [] := by
  have htrim {rest : Text} (hrest : Text.EndsWord rest) :
      Text.trimStart (word.text ++ rest) = word.text ++ rest :=
    Text.trimStart_eq_self fun _ => Word.IsFirstOf.isSpace_of_head? ⟨rest, rfl, hrest⟩
  unfold namesHere startsExport
  rw [Text.upTo_append word.newline_not_mem, htrim hrest, htrim (hrest.upTo '\n'),
    show "export".toList = keyword.text from rfl,
    Text.afterKeyword?_append (fun _ => keyword.isIdentifierChar_of_mem)
      (fun _ => word.isIdentifierChar_of_mem) (hrest.upTo '\n')]
  split
  · rename_i heq
    rw [heq, Option.isSome_some, if_pos rfl, List.drop_left]
  · rfl

/-- Words are passed over, unless what follows the keyword in a line has the form of an export. -/
theorem namesFrom_word (word : Word) (hrest : Text.EndsWord rest)
    (hafter : word.text = keyword.text → namesAfter rest = []) (atStart : Bool) :
    namesFrom atStart (word.text ++ rest) = namesFrom false rest := by
  cases atStart with
  | false => exact namesFrom_append word.newline_not_mem rest
  | true =>
      rw [namesFrom_true, namesHere_word word hrest, namesFrom_append word.newline_not_mem]
      split
      · rename_i heq
        rw [hafter heq, List.nil_append]
      · rfl

/-! ## What follows the keyword -/

theorem namesAfter_brace (blanks : Blanks) (rest : Text) :
    namesAfter (blanks.text ++ '{' :: rest) = listedNames rest := by
  have hbrace : Text.trimStart ('{' :: rest) = '{' :: rest :=
    Text.trimStart_eq_self fun c hc => by cases hc; decide
  unfold namesAfter
  rw [Text.trimStart_append_of_all blanks.isBlank, hbrace]
  rfl

/-- The words by which a form of export is told; two further forms are told by a character. -/
def formWords : List Text := ["async", "function", "const", "let", "var"]

/-- Behind the keyword there is no export unless its form is told by the first word or character. -/
theorem namesAfter_eq_nil (blanks : Blanks) {word : Text}
    (hchars : ∀ c ∈ word, Text.isIdentifierChar c = true) (hform : word ∉ formWords)
    (hrest : Text.EndsWord rest)
    (hhead : ∀ c ∈ (word ++ rest).head?, Text.isSpace c = false ∧ c ≠ '{' ∧ c ≠ '*') :
    namesAfter (blanks.text ++ (word ++ rest)) = [] := by
  have hnone : ∀ form ∈ formWords, Text.afterKeyword? form (word ++ rest) = none := by
    intro form hmem
    have hwords : (formWords.all fun form => form.all Text.isIdentifierChar) = true := by
      decide +kernel
    have hform' := List.all_eq_true.mp (List.all_eq_true.mp hwords form hmem)
    rw [Text.afterKeyword?_append hform' hchars hrest, if_neg]
    rintro rfl
    exact hform hmem
  simp only [formWords, List.forall_mem_cons] at hnone
  obtain ⟨hasync, hfunction, hconst, hlet, hvar, -⟩ := hnone
  unfold namesAfter
  rw [Text.trimStart_append_of_all blanks.isBlank,
    Text.trimStart_eq_self fun c hc => (hhead c hc).1]
  split
  · rename_i heq
    exact absurd rfl (hhead '{' (by rw [heq]; rfl)).2.1
  · rename_i heq
    exact absurd rfl (hhead '*' (by rw [heq]; rfl)).2.2
  · rw [hasync, Option.getD_none, hfunction]
    simp only [afterVariableKeyword?, hconst, hlet, hvar, Option.or_none, Option.map_none,
      Option.getD_none]

/-- A word that is no form of export gives no name. -/
theorem namesAfter_word (blanks : Blanks) (word : Word) (hform : word.text ∉ formWords)
    (hrest : Text.EndsWord rest) : namesAfter (blanks.text ++ (word.text ++ rest)) = [] := by
  refine namesAfter_eq_nil blanks (fun _ => word.isIdentifierChar_of_mem) hform hrest ?_
  intro c hc
  rw [List.head?_append_of_ne_nil _ word.ne_nil] at hc
  have hletter := word.isIdentifierChar_of_mem (List.mem_of_head? hc)
  refine ⟨Text.isSpace_of_isIdentifierChar hletter, ?_, ?_⟩ <;> rintro rfl <;>
    exact absurd hletter (by decide +kernel)

end ComponentLoader.Exports
