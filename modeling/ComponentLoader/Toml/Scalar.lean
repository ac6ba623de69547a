import ComponentLoader.Toml.Value
set_option autoImplicit false

/-!
# Reading TOML scalars (SPEC §7.4)

Step readers for the parts of a document that hold no other values: blanks and comments, keys,
strings, numbers, dates and times.  A step reader takes a part from the front of a text and returns
it with the rest, or nothing when the text does not begin with such a part.
-/

namespace ComponentLoader.Toml

/-- A step reader. -/
abbrev Reader (α : Type) : Type := Text → Option (α × Text)

/-! ## Blanks, comments and line ends -/

/-- Whether a character is a blank within a line. -/
def isBlank (c : Char) : Bool :=
  c = ' ' || c = '\t'

/-- The text after the blanks at its front. -/
def skipBlanks (text : Text) : Text :=
  text.dropWhile isBlank

/-- Whether a character may stand in a comment, and with the exception of delimiters in a string. -/
def isPlain (c : Char) : Bool :=
  c = '\t' || (0x20 ≤ c.toNat && c.toNat ≠ 0x7F)

/-- The text after a line end, which the end of the text is too. -/
def afterLineEnd? : Text → Option Text
  | [] => some []
  | '\n' :: rest => some rest
  | '\r' :: '\n' :: rest => some rest
  | _ => none

/-- The text after a comment at its front. -/
def skipComment : Text → Text
  | '#' :: rest => rest.dropWhile isPlain
  | text => text

/-- The text after the rest of a line, which may hold blanks and a comment. -/
def afterLine? (text : Text) : Option Text :=
  afterLineEnd? (skipComment (skipBlanks text))

/-- The text after blanks and line ends. -/
def skipBlankLines : Text → Text
  | ' ' :: rest => skipBlankLines rest
  | '\t' :: rest => skipBlankLines rest
  | '\n' :: rest => skipBlankLines rest
  | '\r' :: '\n' :: rest => skipBlankLines rest
  | text => text

/-- The text after blanks, line ends and comments; at most `n` comments are skipped. -/
def skipLayout : (n : Nat) → Text → Text
  | 0, text => text
  | n + 1, text =>
    match skipBlankLines text with
    | '#' :: rest => skipLayout n (rest.dropWhile isPlain)
    | rest => rest

theorem length_skipBlankLines_le (text : Text) : (skipBlankLines text).length ≤ text.length := by
  fun_induction skipBlankLines text with
  | case1 rest ih => simp only [List.length_cons]; omega
  | case2 rest ih => simp only [List.length_cons]; omega
  | case3 rest ih => simp only [List.length_cons]; omega
  | case4 rest ih => simp only [List.length_cons]; omega
  | case5 => simp

/-! ## Strings -/

/-- The character with a code point given in hexadecimal digits. -/
def scalar? (digits : List Char) : Option Char := do
  let n ← digits.foldlM (fun n digit => do
    let value ←
      if '0' ≤ digit ∧ digit ≤ '9' then some (digit.toNat - '0'.toNat)
      else if 'a' ≤ digit ∧ digit ≤ 'f' then some (digit.toNat - 'a'.toNat + 10)
      else if 'A' ≤ digit ∧ digit ≤ 'F' then some (digit.toNat - 'A'.toNat + 10)
      else none
    return 16 * n + value) 0
  if n < 0xD800 ∨ (0xDFFF < n ∧ n < 0x110000) then some (Char.ofNat n) else none

/-- The character that an escape stands for, which is read after its backslash. -/
def escape? : Reader Char
  | 'b' :: rest => some ('\x08', rest)
  | 't' :: rest => some ('\t', rest)
  | 'n' :: rest => some ('\n', rest)
  | 'f' :: rest => some ('\x0c', rest)
  | 'r' :: rest => some ('\r', rest)
  | '"' :: rest => some ('"', rest)
  | '\\' :: rest => some ('\\', rest)
  | 'u' :: a :: b :: c :: d :: rest => (scalar? [a, b, c, d]).map (·, rest)
  | 'U' :: a :: b :: c :: d :: e :: f :: g :: h :: rest =>
    (scalar? [a, b, c, d, e, f, g, h]).map (·, rest)
  | _ => none

theorem length_escape?_lt {text rest : Text} {c : Char} (h : escape? text = some (c, rest)) :
    rest.length < text.length := by
  revert h
  fun_cases escape? text <;>
    simp only [Option.some.injEq, Prod.mk.injEq, Option.map_eq_some_iff, reduceCtorEq,
      false_implies] <;>
    (try rintro ⟨_, rfl⟩) <;> (try rintro ⟨_, _, _, rfl⟩) <;>
    simp only [List.length_cons] <;> omega

/-- The rest of a string in double quotes. -/
def basicBody (text : Text) : Option (Text × Text) :=
  match text with
  | [] => none
  | '"' :: rest => some ([], rest)
  | '\\' :: rest =>
    match _h : escape? rest with
    | none => none
    | some (c, rest) => (basicBody rest).map fun (body, after) => (c :: body, after)
  | c :: rest =>
    if isPlain c then (basicBody rest).map fun (body, after) => (c :: body, after) else none
termination_by text.length
decreasing_by
  · have := length_escape?_lt _h
    simp only [List.length_cons]
    omega
  · simp

/-- The rest of a string in single quotes. -/
def literalBody : Reader Text
  | [] => none
  | '\'' :: rest => some ([], rest)
  | c :: rest =>
    if isPlain c then (literalBody rest).map fun (body, after) => (c :: body, after) else none

/-- The end of a string between triple quotes: up to two quotes before the closing three belong to
the string. -/
def tripleEnd? (quote : Char) (text : Text) : Option (Text × Text) :=
  let run := (text.take 5).takeWhile (· = quote)
  if 3 ≤ run.length then some (run.drop 3, text.drop run.length) else none

/-- The text after a backslash at the end of a line, which joins the next text to this line. -/
def afterContinuation? (text : Text) : Option Text :=
  match skipBlanks text with
  | '\n' :: rest => some (skipBlankLines rest)
  | '\r' :: '\n' :: rest => some (skipBlankLines rest)
  | _ => none

theorem length_afterContinuation?_lt {text rest : Text} (h : afterContinuation? text = some rest) :
    rest.length < text.length := by
  have hskip : (skipBlanks text).length ≤ text.length :=
    (List.dropWhile_sublist (p := isBlank) (l := text)).length_le
  unfold afterContinuation? at h
  split at h
  · rename_i tail heq
    cases h
    have := length_skipBlankLines_le tail
    simp only [heq, List.length_cons] at hskip
    omega
  · rename_i tail heq
    cases h
    have := length_skipBlankLines_le tail
    simp only [heq, List.length_cons] at hskip
    omega
  · cases h

/-- The rest of a string between three double quotes. -/
def multilineBasicBody (text : Text) : Option (Text × Text) :=
  match tripleEnd? '"' text with
  | some result => some result
  | none =>
    match text with
    | [] => none
    | '\\' :: rest =>
      match _h : afterContinuation? rest with
      | some rest => multilineBasicBody rest
      | none =>
        match _h : escape? rest with
        | none => none
        | some (c, rest) => (multilineBasicBody rest).map fun (body, after) => (c :: body, after)
    | '\n' :: rest => (multilineBasicBody rest).map fun (body, after) => ('\n' :: body, after)
    | '\r' :: '\n' :: rest =>
      (multilineBasicBody rest).map fun (body, after) => ('\n' :: body, after)
    | c :: rest =>
      if isPlain c then
        (multilineBasicBody rest).map fun (body, after) => (c :: body, after)
      else none
termination_by text.length
decreasing_by
  · have := length_afterContinuation?_lt _h
    simp only [List.length_cons]
    omega
  · have := length_escape?_lt _h
    simp only [List.length_cons]
    omega
  · simp
  · simp only [List.length_cons]
    omega
  · simp

/-- The rest of a string between three single quotes. -/
def multilineLiteralBody (text : Text) : Option (Text × Text) :=
  match tripleEnd? '\'' text with
  | some result => some result
  | none =>
    match text with
    | [] => none
    | '\n' :: rest => (multilineLiteralBody rest).map fun (body, after) => ('\n' :: body, after)
    | '\r' :: '\n' :: rest =>
      (multilineLiteralBody rest).map fun (body, after) => ('\n' :: body, after)
    | c :: rest =>
      if isPlain c then
        (multilineLiteralBody rest).map fun (body, after) => (c :: body, after)
      else none

/-- A text without one line end at its front. -/
def dropFirstLineEnd : Text → Text
  | '\n' :: rest => rest
  | '\r' :: '\n' :: rest => rest
  | text => text

/-- A string of any of the four forms. -/
def string? : Reader Text
  | '"' :: '"' :: '"' :: rest => multilineBasicBody (dropFirstLineEnd rest)
  | '"' :: rest => basicBody rest
  | '\'' :: '\'' :: '\'' :: rest => multilineLiteralBody (dropFirstLineEnd rest)
  | '\'' :: rest => literalBody rest
  | _ => none

/-! ## Keys -/

/-- Whether a character may stand in a key without quotes. -/
def isBareKeyChar (c : Char) : Bool :=
  c.isAlphanum || c = '_' || c = '-'

/-- One part of a key. -/
def simpleKey? (text : Text) : Option (Text × Text) :=
  match text with
  | '"' :: rest => basicBody rest
  | '\'' :: rest => literalBody rest
  | _ =>
    match text.takeWhile isBareKeyChar with
    | [] => none
    | key => some (key, text.dropWhile isBareKeyChar)

/-- The parts of a key between dots, with blanks around each; at most `n` of them. -/
def key? : (n : Nat) → Reader (List Text)
  | 0, _ => none
  | n + 1, text =>
    match simpleKey? (skipBlanks text) with
    | none => none
    | some (part, rest) =>
      match skipBlanks rest with
      | '.' :: rest => (key? n rest).map fun (parts, rest) => (part :: parts, rest)
      | rest => some ([part], rest)

/-! ## Numbers -/

/-- Digits with single underscores between them, after the first digit. -/
def moreDigits? (isDigit : Char → Bool) : Reader (List Char)
  | '_' :: d :: rest =>
    if isDigit d then (moreDigits? isDigit rest).map fun (digits, rest) => (d :: digits, rest)
    else none
  | ['_'] => none
  | d :: rest =>
    if isDigit d then (moreDigits? isDigit rest).map fun (digits, rest) => (d :: digits, rest)
    else some ([], d :: rest)
  | [] => some ([], [])

/-- A run of digits with single underscores between them. -/
def digits? (isDigit : Char → Bool) : Reader (List Char)
  | d :: rest =>
    if isDigit d then (moreDigits? isDigit rest).map fun (digits, rest) => (d :: digits, rest)
    else none
  | [] => none

/-- The value of digits in a base up to sixteen. -/
def digitsValue (base : Nat) (digits : List Char) : Nat :=
  digits.foldl (fun n digit =>
    let value :=
      if digit.isDigit then digit.toNat - '0'.toNat else digit.toLower.toNat - 'a'.toNat + 10
    base * n + value) 0

/-- A sign, and whether it is a minus. -/
def sign : Text → Bool × Text
  | '+' :: rest => (false, rest)
  | '-' :: rest => (true, rest)
  | text => (false, text)

/-- A whole number without its sign: zero, or digits that do not begin with zero. -/
def wholeDigits? : Reader (List Char)
  | '0' :: rest => some (['0'], rest)
  | text => digits? Char.isDigit text

/-- Whether a number is in the range of 64 bits with a sign. -/
def fitsInteger (n : Int) : Bool :=
  -0x8000000000000000 ≤ n && n < 0x8000000000000000

/-- An integer in the range of 64 bits. -/
def boundedInteger? (n : Int) : Option Value :=
  if fitsInteger n then some (.integer n) else none

/-- Whether a character is a digit of the octal system. -/
def isOctalDigit (c : Char) : Bool :=
  '0' ≤ c && c ≤ '7'

/-- Whether a character is a digit of the binary system. -/
def isBinaryDigit (c : Char) : Bool :=
  c = '0' || c = '1'

/-- Whether a character is a digit of the hexadecimal system. -/
def isHexDigit (c : Char) : Bool :=
  c.isDigit || ('a' ≤ c && c ≤ 'f') || ('A' ≤ c && c ≤ 'F')

/-- An integer in another base than ten. -/
def radixInteger? (base : Nat) (isDigit : Char → Bool) (text : Text) : Option (Value × Text) := do
  let (digits, rest) ← digits? isDigit text
  let value ← boundedInteger? (digitsValue base digits)
  return (value, rest)

/-- The exponent of a float, after its letter. -/
def exponent? (text : Text) : Option (Int × Text) := do
  let (negative, text) := sign text
  let (digits, rest) ← digits? Char.isDigit text
  let n : Int := digitsValue 10 digits
  return (if negative then -n else n, rest)

/-- The float with the given sign, digits and exponent; a positive one has to be finite. -/
def float? (negative : Bool) (digits : List Char) (exponent : Int) : Option Value :=
  match Binary64.ofDecimal negative ⟨digitsValue 10 digits, exponent⟩ with
  | .infinity false => none
  | value => some (.float value)

/-- The exponent that may follow the digits of a float, and the text after it. -/
def optionalExponent? : Reader Int
  | 'e' :: rest => exponent? rest
  | 'E' :: rest => exponent? rest
  | rest => some (0, rest)

/-- What may follow the whole part of a number: nothing, or a fraction and an exponent. -/
def afterWhole? (negative : Bool) (whole : List Char) (text : Text) : Option (Value × Text) :=
  match text with
  | '.' :: rest => do
    let (fraction, rest) ← digits? Char.isDigit rest
    let (exponent, rest) ← optionalExponent? rest
    let value ← float? negative (whole ++ fraction) (exponent - fraction.length)
    return (value, rest)
  | rest =>
    if rest.head? = some 'e' ∨ rest.head? = some 'E' then do
      let (exponent, rest) ← optionalExponent? rest
      let value ← float? negative whole exponent
      return (value, rest)
    else do
      let n : Int := digitsValue 10 whole
      let value ← boundedInteger? (if negative then -n else n)
      return (value, rest)

/-- A number in any of its forms. -/
def number? : Reader Value
  | '0' :: 'x' :: rest => radixInteger? 16 isHexDigit rest
  | '0' :: 'o' :: rest => radixInteger? 8 isOctalDigit rest
  | '0' :: 'b' :: rest => radixInteger? 2 isBinaryDigit rest
  | text =>
    match sign text with
    | (negative, 'i' :: 'n' :: 'f' :: rest) => some (.float (.infinity negative), rest)
    | (_, 'n' :: 'a' :: 'n' :: rest) => some (.float .nan, rest)
    | (negative, rest) => do
      let (whole, rest) ← wholeDigits? rest
      afterWhole? negative whole rest

/-! ## Dates and times -/

/-- A number of exactly `width` digits between two bounds. -/
def fixed? (width low high : Nat) (text : Text) : Option (Nat × Text) :=
  let digits := text.take width
  let n := digitsValue 10 digits
  if digits.length = width ∧ digits.all Char.isDigit ∧ low ≤ n ∧ n ≤ high then
    some (n, text.drop width)
  else none

/-- The text after a character that has to be there. -/
def after? (c : Char) : Text → Option Text
  | d :: rest => if d = c then some rest else none
  | [] => none

/-- The number of days of a month. -/
def daysOfMonth (year month : Nat) : Nat :=
  if month = 2 then
    if year % 4 = 0 ∧ (year % 100 ≠ 0 ∨ year % 400 = 0) then 29 else 28
  else if month = 4 ∨ month = 6 ∨ month = 9 ∨ month = 11 then 30
  else 31

/-- A date. -/
def date? (text : Text) : Option (Date × Text) := do
  let (year, text) ← fixed? 4 0 9999 text
  let text ← after? '-' text
  let (month, text) ← fixed? 2 1 12 text
  let text ← after? '-' text
  let (day, text) ← fixed? 2 1 (daysOfMonth year month) text
  return (⟨year, month, day⟩, text)

/-- The nanoseconds that the digits of a fraction of a second stand for; digits beyond the ninth are
dropped. -/
def nanoseconds (digits : List Char) : Nat :=
  let kept := digits.take 9
  digitsValue 10 kept * Nat.pow 10 (9 - kept.length)

/-- The fraction of a second that may follow a time. -/
def fraction (text : Text) : Nat × Text :=
  match text with
  | '.' :: rest =>
    match rest.takeWhile Char.isDigit with
    | [] => (0, text)
    | digits => (nanoseconds digits, rest.dropWhile Char.isDigit)
  | _ => (0, text)

/-- A time of day; the last minute of a day may have a leap second. -/
def time? (text : Text) : Option (Time × Text) := do
  let (hour, text) ← fixed? 2 0 23 text
  let text ← after? ':' text
  let (minute, text) ← fixed? 2 0 59 text
  let text ← after? ':' text
  let (second, text) ← fixed? 2 0 60 text
  let (nanosecond, text) := fraction text
  return (⟨hour, minute, second, nanosecond⟩, text)

/-- An offset from universal time in hours and minutes, after its sign. -/
def offsetMinutes? (text : Text) : Option (Nat × Text) := do
  let (hour, text) ← fixed? 2 0 23 text
  let text ← after? ':' text
  let (minute, text) ← fixed? 2 0 59 text
  return (60 * hour + minute, text)

/-- The offset that may follow a date with a time. -/
def offset? (text : Text) : Option (Option Offset × Text) :=
  match text with
  | 'Z' :: rest => some (some .universal, rest)
  | 'z' :: rest => some (some .universal, rest)
  | '+' :: rest => (offsetMinutes? rest).map fun (n, rest) => (some (.minutes n), rest)
  | '-' :: rest => (offsetMinutes? rest).map fun (n, rest) => (some (.minutes (-n)), rest)
  | _ => some (none, text)

/-- Whether a character may stand between a date and a time. -/
def isTimeDelimiter (c : Char) : Bool :=
  c = 'T' || c = 't' || c = ' '

/-- A date, a time, or both. -/
def datetime? (text : Text) : Option (Datetime × Text) :=
  match date? text with
  | none => (time? text).map fun (time, rest) => (⟨none, some time, none⟩, rest)
  | some (date, rest) =>
    let timed : Option (Time × Text) :=
      match rest with
      | c :: rest => if isTimeDelimiter c then time? rest else none
      | [] => none
    match timed with
    | none => some (⟨some date, none, none⟩, rest)
    | some (time, rest) =>
      (offset? rest).map fun (offset, rest) => (⟨some date, some time, offset⟩, rest)

/-! ## Scalars -/

/-- A scalar value. -/
def scalarValue? (text : Text) : Option (Value × Text) :=
  match text with
  | '"' :: _ => (string? text).map fun (body, rest) => (.string body, rest)
  | '\'' :: _ => (string? text).map fun (body, rest) => (.string body, rest)
  | 't' :: 'r' :: 'u' :: 'e' :: rest => some (.boolean true, rest)
  | 'f' :: 'a' :: 'l' :: 's' :: 'e' :: rest => some (.boolean false, rest)
  | _ =>
    match datetime? text with
    | some (value, rest) => some (.datetime value, rest)
    | none => number? text

end ComponentLoader.Toml
