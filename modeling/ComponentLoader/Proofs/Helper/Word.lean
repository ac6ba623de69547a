import ComponentLoader.Proofs.Text.Keyword
import Mathlib.Data.List.Basic
set_option autoImplicit false

/-!
# Words and the blanks between them (SPEC §4.4)

The words of a script and the blanks that keep them apart, with what makes them so.  A word at the
front of a text is the identifier that is read there, however the text goes on behind the word.
-/

namespace ComponentLoader.Exports

/-- A text that holds blanks only. -/
structure Blanks where
  text : Text
  isBlank : text.all Text.isSpace = true

/-- Blanks that keep two words apart. -/
structure Gap extends Blanks where
  ne_nil : text ≠ []

/-- A text that is an identifier. -/
structure Word where
  text : Text
  isWord : Text.identifier? text = some text

namespace Blanks

theorem isSpace_of_mem (blanks : Blanks) {c : Char} (h : c ∈ blanks.text) : Text.isSpace c = true :=
  List.all_eq_true.mp blanks.isBlank c h

theorem not_mem (blanks : Blanks) {c : Char} (h : Text.isSpace c = false) : c ∉ blanks.text :=
  fun hmem => by
    rw [blanks.isSpace_of_mem hmem] at h
    cases h

theorem endsWord_append (blanks : Blanks) {rest : Text} (h : Text.EndsWord rest) :
    Text.EndsWord (blanks.text ++ rest) :=
  Text.endsWord_blanks blanks.isBlank h

end Blanks

theorem Gap.endsWord_append (gap : Gap) (rest : Text) : Text.EndsWord (gap.text ++ rest) := by
  obtain ⟨c, others, hgap⟩ := List.exists_cons_of_ne_nil gap.ne_nil
  have hc : Text.isSpace c = true := gap.isSpace_of_mem (by simp [hgap])
  rw [hgap]
  exact Text.endsWord_cons (Text.isIdentifierChar_of_isSpace hc) _

namespace Word

variable (word : Word)

theorem ne_nil : word.text ≠ [] :=
  (Text.identifier?_eq_some word.isWord).1

theorem isIdentifierChar_of_mem {c : Char} (h : c ∈ word.text) : Text.isIdentifierChar c = true :=
  (Text.identifier?_eq_some word.isWord).2.1 c h

theorem isSpace_of_mem {c : Char} (h : c ∈ word.text) : Text.isSpace c = false :=
  Text.isSpace_of_isIdentifierChar (word.isIdentifierChar_of_mem h)

theorem newline_not_mem : '\n' ∉ word.text :=
  fun hmem => absurd (word.isSpace_of_mem hmem) (by decide)

/-- A text begins with the word. -/
def IsFirstOf (text : Text) : Prop :=
  ∃ rest, text = word.text ++ rest ∧ Text.EndsWord rest

namespace IsFirstOf

variable {word} {text : Text}

theorem of_gap (h : word.IsFirstOf text) (gap : Gap) (more : Text) :
    word.IsFirstOf (text ++ (gap.text ++ more)) := by
  obtain ⟨rest, rfl, hrest⟩ := h
  refine ⟨rest ++ (gap.text ++ more), List.append_assoc .., ?_⟩
  cases rest with
  | nil => exact gap.endsWord_append more
  | cons c others => exact Text.endsWord_cons (hrest c rfl) _

theorem isSpace_of_head? (h : word.IsFirstOf text) {c : Char} (hc : c ∈ text.head?) :
    Text.isSpace c = false := by
  obtain ⟨rest, rfl, -⟩ := h
  rw [List.head?_append_of_ne_nil _ word.ne_nil] at hc
  exact word.isSpace_of_mem (List.mem_of_head? hc)

/-- The word is read from a text that it is the first word of. -/
theorem identifier?_trim (h : word.IsFirstOf text) {blanks : Text}
    (hblanks : blanks.all Text.isSpace = true) :
    Text.identifier? (Text.trim (blanks ++ text)) = some word.text := by
  have hstart : Text.trimStart (blanks ++ text) = text := by
    rw [Text.trimStart_append_of_all hblanks, Text.trimStart_eq_self fun _ => h.isSpace_of_head?]
  obtain ⟨rest, rfl, hrest⟩ := h
  have hlast : ∀ c ∈ word.text.getLast?, Text.isSpace c = false := fun c hc =>
    word.isSpace_of_mem (List.mem_of_getLast? hc)
  rw [Text.trim, hstart, Text.trimEnd_append hlast,
    Text.identifier?_append word.isWord hrest.trimEnd]

end IsFirstOf

end Word

/-! ## Words that are read for what they are -/

/-- The word with which an export begins. -/
def keyword : Word := ⟨"export", by decide +kernel⟩

/-- The word in front of an alias. -/
def Word.as : Word := ⟨"as", by decide +kernel⟩

/-- The modifier of a specifier that is about a type. -/
def Word.type : Word := ⟨"type", by decide +kernel⟩

@[simp]
theorem Word.text_as : Word.as.text = "as".toList := rfl

end ComponentLoader.Exports
