import ComponentLoader.Text.Basic
set_option autoImplicit false

/-!
# String literals (SPEC §4.4)

The written form of a string in a module: the text between double quotes, in which a quote, a
backslash and the control characters below U+0020 are escaped and everything else stands for
itself.  `quote` writes that form; `unquote?` reads every literal of the JSON grammar, of which the
written ones are a part, with blanks allowed around it.
-/

namespace ComponentLoader.Text

/-! ## Writing -/

/-- The lower-case hexadecimal digit of a number below sixteen. -/
def hexDigit (n : Nat) : Char :=
  if n < 10 then Char.ofNat ('0'.toNat + n) else Char.ofNat ('a'.toNat + (n - 10))

/-- The form of a character inside a literal. -/
def escapeChar (c : Char) : Text :=
  if c = '"' then ['\\', '"']
  else if c = '\\' then ['\\', '\\']
  else if c = '\x08' then ['\\', 'b']
  else if c = '\x0c' then ['\\', 'f']
  else if c = '\n' then ['\\', 'n']
  else if c = '\r' then ['\\', 'r']
  else if c = '\t' then ['\\', 't']
  else if c.toNat < 0x20 then
    ['\\', 'u', '0', '0', hexDigit (c.toNat / 16), hexDigit (c.toNat % 16)]
  else [c]

/-- A text as a literal. -/
def quote (text : Text) : Text :=
  '"' :: text.flatMap escapeChar ++ ['"']

/-! ## Reading -/

/-- The value of a hexadecimal digit in either case. -/
def hexValue? (c : Char) : Option Nat :=
  if '0' ≤ c ∧ c ≤ '9' then some (c.toNat - '0'.toNat)
  else if 'a' ≤ c ∧ c ≤ 'f' then some (c.toNat - 'a'.toNat + 10)
  else if 'A' ≤ c ∧ c ≤ 'F' then some (c.toNat - 'A'.toNat + 10)
  else none

/-- The number that four hexadecimal digits denote. -/
def codeUnit? (a b c d : Char) : Option Nat := do
  return 0x1000 * (← hexValue? a) + 0x100 * (← hexValue? b) + 0x10 * (← hexValue? c) +
    (← hexValue? d)

/-- The character that a backslash and one letter stand for. -/
def simpleEscape? (c : Char) : Option Char :=
  match c with
  | '"' => some '"'
  | '\\' => some '\\'
  | '/' => some '/'
  | 'b' => some '\x08'
  | 'f' => some '\x0c'
  | 'n' => some '\n'
  | 'r' => some '\r'
  | 't' => some '\t'
  | _ => none

/-- The character that two halves of a surrogate pair stand for. -/
def pairedChar? (high low : Nat) : Option Char :=
  if 0xDC00 ≤ low ∧ low ≤ 0xDFFF then
    some (Char.ofNat (0x10000 + 0x400 * (high - 0xD800) + (low - 0xDC00)))
  else
    none

/-- The rest of a literal after its opening quote: the text it denotes, and what follows the closing
quote. -/
def literalBody? : Text → Option (Text × Text)
  | [] => none
  | '"' :: rest => some ([], rest)
  | '\\' :: 'u' :: a :: b :: c :: d :: rest =>
    match codeUnit? a b c d with
    | none => none
    | some unit =>
      if 0xD800 ≤ unit ∧ unit ≤ 0xDBFF then
        match rest with
        | '\\' :: 'u' :: e :: f :: g :: h :: rest =>
          match (codeUnit? e f g h).bind (pairedChar? unit) with
          | none => none
          | some char => (literalBody? rest).map fun (text, after) => (char :: text, after)
        | _ => none
      else if 0xDC00 ≤ unit ∧ unit ≤ 0xDFFF then none
      else (literalBody? rest).map fun (text, after) => (Char.ofNat unit :: text, after)
  | '\\' :: letter :: rest =>
    match simpleEscape? letter with
    | none => none
    | some char => (literalBody? rest).map fun (text, after) => (char :: text, after)
  | c :: rest =>
    if c.toNat < 0x20 then none
    else (literalBody? rest).map fun (text, after) => (c :: text, after)

/-- Whether a character may stand around a literal. -/
def isLiteralBlank (c : Char) : Bool :=
  c = ' ' || c = '\t' || c = '\n' || c = '\r'

/-- The text that a literal denotes, if the text is one literal with blanks around it. -/
def unquote? (literal : Text) : Option Text :=
  match literal.dropWhile isLiteralBlank with
  | '"' :: rest =>
    match literalBody? rest with
    | some (text, after) => if after.all isLiteralBlank then some text else none
    | none => none
  | _ => none

end ComponentLoader.Text
