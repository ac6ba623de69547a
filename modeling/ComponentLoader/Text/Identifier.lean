import ComponentLoader.Text.Alphanumeric
import ComponentLoader.Text.Space
set_option autoImplicit false

/-!
# Identifiers and keywords (SPEC §4.4)

An identifier is a run of letters, numbers, `_` and `$` that does not begin with an ASCII digit.  A
keyword counts only where no such character follows it, so that `exports` is not `export`.
-/

namespace ComponentLoader.Text

/-- Whether a character may stand in an identifier. -/
def isIdentifierChar (c : Char) : Bool :=
  isAlphanumeric c || c = '_' || c = '$'

/-- The identifier at the front of a text. -/
def identifier? (text : Text) : Option Text :=
  match text.takeWhile isIdentifierChar with
  | [] => none
  | c :: rest => if c.isDigit then none else some (c :: rest)

/-- What follows `keyword` and the blanks after it, in a text that begins with that keyword. -/
def afterKeyword? (keyword text : Text) : Option Text := do
  let rest ← dropLead? keyword text
  match rest with
  | [] => some []
  | c :: _ => if isIdentifierChar c then none else some (trimStart rest)

/-- An identifier is not empty, consists of identifier characters only and does not begin with a
digit. -/
theorem identifier?_eq_some {text name : Text} (h : identifier? text = some name) :
    name ≠ [] ∧ (∀ c ∈ name, isIdentifierChar c = true) ∧ (∀ c ∈ name.head?, c.isDigit = false) ∧
      name <+: text := by
  unfold identifier? at h
  split at h
  · cases h
  · rename_i c rest hrun
    split at h
    · cases h
    · rename_i hdigit
      cases h
      have hmem : ∀ d ∈ c :: rest, isIdentifierChar d = true := by
        rw [← hrun]
        exact List.all_eq_true.mp List.all_takeWhile
      refine ⟨by simp, hmem, by simpa using hdigit, ?_⟩
      rw [← hrun]
      exact List.takeWhile_prefix _

end ComponentLoader.Text
