import ComponentLoader.Text.Basic
set_option autoImplicit false

/-!
# Lexemes of stylesheets (SPEC §4.3)

A stylesheet is a sequence of comments, quoted strings and single characters.  Cut into these, a
brace or a semicolon that means something is a lexeme of its own, and one inside a comment or a
string is not.  A comment or a string without an end takes the rest of the text.

Main statement: the texts of the lexemes, one after the other, are the stylesheet.
-/

namespace ComponentLoader

/-- A piece of a stylesheet. -/
inductive Lexeme where
  /-- a comment with its delimiters -/
  | comment (text : Text)
  /-- a string with its quotes -/
  | quoted (text : Text)
  /-- a comment or a string that does not end, with all that follows -/
  | endless (text : Text)
  /-- any other character -/
  | plain (char : Char)
  deriving DecidableEq, Repr, Inhabited

namespace Lexeme

/-- The text that a lexeme was cut from. -/
def text : Lexeme → Text
  | comment text => text
  | quoted text => text
  | endless text => text
  | plain char => [char]

/-- The text that some lexemes were cut from. -/
def textOf (lexemes : List Lexeme) : Text :=
  lexemes.flatMap text

@[simp]
theorem textOf_nil : textOf [] = [] := rfl

@[simp]
theorem textOf_cons (l : Lexeme) (rest : List Lexeme) :
    textOf (l :: rest) = l.text ++ textOf rest :=
  rfl

@[simp]
theorem textOf_append (a b : List Lexeme) : textOf (a ++ b) = textOf a ++ textOf b := by
  simp [textOf]

/-! ## Where comments and strings end -/

/-- The rest of a comment up to its end, and the text after it. -/
def commentRest? : Text → Option (Text × Text)
  | [] => none
  | [_] => none
  | a :: b :: rest =>
    if a = '*' ∧ b = '/' then some ([a, b], rest)
    else (commentRest? (b :: rest)).map fun (body, after) => (a :: body, after)

/-- The rest of a string up to its closing quote, and the text after it.  A backslash takes the next
character with it. -/
def stringRest? (quote : Char) : Text → Option (Text × Text)
  | [] => none
  | ['\\'] => none
  | '\\' :: c :: rest =>
    (stringRest? quote rest).map fun (body, after) => ('\\' :: c :: body, after)
  | c :: rest =>
    if c = quote then some ([c], rest)
    else (stringRest? quote rest).map fun (body, after) => (c :: body, after)

theorem commentRest?_eq_some {text body after : Text} (h : commentRest? text = some (body, after)) :
    text = body ++ after ∧ after.length < text.length := by
  fun_induction commentRest? text generalizing body with
  | case1 => cases h
  | case2 => cases h
  | case3 a b rest hab =>
    cases h
    exact ⟨rfl, by simp only [List.length_cons]; omega⟩
  | case4 a b rest hab ih =>
    simp only [Option.map_eq_some_iff, Prod.exists, Prod.mk.injEq] at h
    obtain ⟨inner, tail, hinner, rfl, rfl⟩ := h
    obtain ⟨htext, hlength⟩ := ih hinner
    refine ⟨by rw [htext]; rfl, ?_⟩
    simp only [List.length_cons] at hlength ⊢
    omega

theorem stringRest?_eq_some {quote : Char} {text body after : Text}
    (h : stringRest? quote text = some (body, after)) :
    text = body ++ after ∧ after.length < text.length := by
  fun_induction stringRest? quote text generalizing body with
  | case1 => cases h
  | case2 => cases h
  | case3 c rest ih =>
    simp only [Option.map_eq_some_iff, Prod.exists, Prod.mk.injEq] at h
    obtain ⟨inner, tail, hinner, rfl, rfl⟩ := h
    obtain ⟨htext, hlength⟩ := ih hinner
    refine ⟨by rw [htext]; rfl, ?_⟩
    simp only [List.length_cons] at hlength ⊢
    omega
  | case4 rest =>
    cases h
    exact ⟨rfl, by simp⟩
  | case5 c rest hslash hlast hquote ih =>
    simp only [Option.map_eq_some_iff, Prod.exists, Prod.mk.injEq] at h
    obtain ⟨inner, tail, hinner, rfl, rfl⟩ := h
    obtain ⟨htext, hlength⟩ := ih hinner
    refine ⟨by rw [htext]; rfl, ?_⟩
    simp only [List.length_cons] at hlength ⊢
    omega

/-! ## Cutting -/

/-- Whether a character opens a string. -/
def isQuote (c : Char) : Bool :=
  c = '"' || c = '\''

/-- The lexeme at the front of a text that is not empty, and the text after it. -/
def first (c : Char) (rest : Text) : Lexeme × Text :=
  if isQuote c then
    match stringRest? c rest with
    | some (body, after) => (quoted (c :: body), after)
    | none => (endless (c :: rest), [])
  else
    match c, rest with
    | '/', '*' :: rest =>
      match commentRest? rest with
      | some (body, after) => (comment ('/' :: '*' :: body), after)
      | none => (endless ('/' :: '*' :: rest), [])
    | c, rest => (plain c, rest)

theorem first_spec (c : Char) (rest : Text) :
    (first c rest).1.text ++ (first c rest).2 = c :: rest ∧
      (first c rest).2.length ≤ rest.length := by
  unfold first
  split
  · split
    · rename_i body after h
      obtain ⟨htext, hlength⟩ := stringRest?_eq_some h
      exact ⟨by simp [text, htext], Nat.le_of_lt hlength⟩
    · simp [text]
  · split
    · rename_i rest
      split
      · rename_i body after h
        obtain ⟨htext, hlength⟩ := commentRest?_eq_some h
        exact ⟨by simp [text, htext], by simp only [List.length_cons]; omega⟩
      · simp [text]
    · simp [text]

/-- The lexemes of a stylesheet. -/
def ofText : Text → List Lexeme
  | [] => []
  | c :: rest => (first c rest).1 :: ofText (first c rest).2
termination_by text => text.length
decreasing_by
  have := (first_spec c rest).2
  simp only [List.length_cons]
  omega

/-- Cutting a stylesheet into lexemes loses nothing. -/
theorem textOf_ofText (css : Text) : textOf (ofText css) = css := by
  fun_induction ofText css with
  | case1 => rfl
  | case2 c rest ih =>
    rw [textOf_cons, ih]
    exact (first_spec c rest).1

end Lexeme

end ComponentLoader
