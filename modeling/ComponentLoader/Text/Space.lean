import ComponentLoader.Text.Basic
set_option autoImplicit false

/-!
# Blank characters

Two classes of blanks are in use: the Unicode property White_Space (`isSpace`), by which texts are
trimmed and split into words, and the five ASCII blanks of markup (`isAsciiSpace`), which end a tag
name or an attribute.
-/

namespace ComponentLoader.Text

/-- Whether a character has the Unicode property White_Space. -/
def isSpace (c : Char) : Bool :=
  let n := c.toNat
  (0x9 ≤ n && n ≤ 0xD) || n = 0x20 || n = 0x85 || n = 0xA0 || n = 0x1680 ||
    (0x2000 ≤ n && n ≤ 0x200A) || n = 0x2028 || n = 0x2029 || n = 0x202F || n = 0x205F || n = 0x3000

/-- Whether a character is one of the blanks of markup: space, tab, line feed, form feed or
carriage return. -/
def isAsciiSpace (c : Char) : Bool :=
  c = ' ' || c = '\t' || c = '\n' || c = '\x0c' || c = '\r'

/-- The text without the blanks at its front. -/
def trimStart (text : Text) : Text :=
  text.dropWhile isSpace

/-- The blanks at the front of a text. -/
def leadingSpace (text : Text) : Text :=
  text.takeWhile isSpace

/-- The text without the blanks at its end. -/
def trimEnd (text : Text) : Text :=
  (text.reverse.dropWhile isSpace).reverse

/-- The blanks at the end of a text. -/
def trailingSpace (text : Text) : Text :=
  (text.reverse.takeWhile isSpace).reverse

/-- The text without the blanks around it. -/
def trim (text : Text) : Text :=
  trimEnd (trimStart text)

/-- Puts a character in front of the first word of a list. -/
def consFirst (c : Char) : List Text → List Text
  | [] => [[c]]
  | word :: words => (c :: word) :: words

/-- The maximal runs of characters that are not blank. -/
def words : Text → List Text
  | [] => []
  | [c] => if isSpace c then [] else [[c]]
  | c :: d :: rest =>
    if isSpace c then words (d :: rest)
    else if isSpace d then [c] :: words (d :: rest)
    else consFirst c (words (d :: rest))

theorem leadingSpace_append_trimStart (text : Text) : leadingSpace text ++ trimStart text = text :=
  List.takeWhile_append_dropWhile

theorem trimEnd_append_trailingSpace (text : Text) : trimEnd text ++ trailingSpace text = text := by
  rw [trimEnd, trailingSpace, ← List.reverse_append, List.takeWhile_append_dropWhile,
    List.reverse_reverse]

end ComponentLoader.Text
