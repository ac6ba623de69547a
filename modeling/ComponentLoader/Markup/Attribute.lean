import ComponentLoader.Text.Space
set_option autoImplicit false

/-!
# Attributes of elements (SPEC §4.4)

The text between the name of a tag and its end, as a list of attributes.  Blanks separate them; a
value follows an equals sign, in quotes or up to the next blank.  Where a name is given twice, the
first one counts.
-/

namespace ComponentLoader.Markup

/-- An attribute, its name in lower case, with the byte offset at which it stands. -/
structure Attribute where
  name : Text
  value : Option Text
  offset : Nat
  deriving DecidableEq, Repr, Inhabited

/-- Whether a character belongs to the name of an attribute. -/
def isNameChar (c : Char) : Bool :=
  !Text.isAsciiSpace c && c ≠ '='

/-- The value after the name of an attribute, if there is one, and the text after it. -/
def attributeValue (text : Text) : Option Text × Text :=
  match text with
  | '=' :: rest =>
    match rest with
    | c :: quoted =>
      if c = '"' ∨ c = '\'' then (some (Text.upTo c quoted), (quoted.dropWhile (· ≠ c)).drop 1)
      else (some (rest.takeWhile (!Text.isAsciiSpace ·)), rest.dropWhile (!Text.isAsciiSpace ·))
    | [] => (some [], [])
  | _ => (none, text)

theorem length_attributeValue_le (text : Text) : (attributeValue text).2.length ≤ text.length := by
  unfold attributeValue
  split
  · split
    · rename_i c quoted
      split
      · have := (List.dropWhile_sublist (p := (· ≠ c)) (l := quoted)).length_le
        simp only [List.length_drop, List.length_cons]
        omega
      · have := (List.dropWhile_sublist (p := (!Text.isAsciiSpace ·)) (l := c :: quoted)).length_le
        simp only [List.length_cons] at this ⊢
        omega
    · simp
  · simp

theorem length_attributeValue_lt_of_eq (rest : Text) :
    (attributeValue ('=' :: rest)).2.length < ('=' :: rest).length := by
  simp only [attributeValue]
  split
  · rename_i c quoted
    split
    · have := (List.dropWhile_sublist (p := (· ≠ c)) (l := quoted)).length_le
      simp only [List.length_drop, List.length_cons]
      omega
    · have := (List.dropWhile_sublist (p := (!Text.isAsciiSpace ·)) (l := c :: quoted)).length_le
      simp only [List.length_cons] at this ⊢
      omega
  · simp

/-- What follows an attribute is shorter than the text that begins with it. -/
theorem length_afterAttribute_lt {c : Char} {rest : Text} (h : Text.isAsciiSpace c = false) :
    (attributeValue ((c :: rest).dropWhile isNameChar)).2.length < (c :: rest).length := by
  by_cases hc : c = '='
  · subst hc
    have : ('=' :: rest).dropWhile isNameChar = '=' :: rest := by
      simp [isNameChar]
    rw [this]
    exact length_attributeValue_lt_of_eq rest
  · have hname : isNameChar c = true := by simp [isNameChar, h, hc]
    have hdrop : (c :: rest).dropWhile isNameChar = rest.dropWhile isNameChar := by
      simp [hname]
    rw [hdrop]
    have hvalue := length_attributeValue_le (rest.dropWhile isNameChar)
    have hle := (List.dropWhile_sublist (p := isNameChar) (l := rest)).length_le
    simp only [List.length_cons]
    omega

/-- The attributes of a text that stands at a byte offset. -/
def attributes (offset : Nat) (text : Text) : List Attribute :=
  match text with
  | [] => []
  | c :: rest =>
    if _h : Text.isAsciiSpace c = true then attributes (offset + c.utf8Size) rest
    else
      let name := (c :: rest).takeWhile isNameChar
      let value := attributeValue ((c :: rest).dropWhile isNameChar)
      ⟨Text.asciiLower name, value.1, offset⟩ ::
        attributes (offset + (Text.byteSize (c :: rest) - Text.byteSize value.2)) value.2
termination_by text.length
decreasing_by
  · simp
  · exact length_afterAttribute_lt (by simpa using _h)

/-- The first attribute with a name. -/
def findAttribute? (given : List Attribute) (name : Text) : Option Attribute :=
  given.find? fun a => a.name = name

/-- The value of the first attribute with a name. -/
def valueOf? (given : List Attribute) (name : Text) : Option Text :=
  (findAttribute? given name).bind Attribute.value

end ComponentLoader.Markup
