set_option autoImplicit false

/-!
# Texts

Everything the library reads and writes is a text, and a text is the list of its characters, so
that each scanner is a recursion on its input and each law about it an induction.  Sizes and
offsets are counted in bytes of the UTF-8 form (`byteSize`), since that is the unit in which tools
outside report positions.

The operations below cut a text at characters and at patterns.  Those that can fail to find
anything answer an `Option`; none of them loses or changes a character.
-/

namespace ComponentLoader

/-- A text is its characters in order. -/
abbrev Text : Type := List Char

/-- A string literal stands for the text of its characters. -/
instance : Coe String Text := ⟨String.toList⟩

namespace Text

/-! ## Bytes -/

/-- The UTF-8 form of a text. -/
def utf8 (text : Text) : List UInt8 :=
  text.flatMap String.utf8EncodeChar

/-- The number of bytes of the UTF-8 form. -/
def byteSize : Text → Nat
  | [] => 0
  | c :: rest => c.utf8Size + byteSize rest

/-- The text that a byte sequence is the UTF-8 form of, if it is one. -/
def ofUtf8? (bytes : List UInt8) : Option Text :=
  (String.fromUTF8? ⟨bytes.toArray⟩).map String.toList

/-- The ranges of the bytes that follow a first byte in the UTF-8 form of a character; none for a
byte that is a character by itself or begins no character. -/
def followers (lead : UInt8) : List (UInt8 × UInt8) :=
  let tail : UInt8 × UInt8 := (0x80, 0xBF)
  if 0xC2 ≤ lead ∧ lead ≤ 0xDF then [tail]
  else if lead = 0xE0 then [(0xA0, 0xBF), tail]
  else if lead = 0xED then [(0x80, 0x9F), tail]
  else if 0xE1 ≤ lead ∧ lead ≤ 0xEF then [tail, tail]
  else if lead = 0xF0 then [(0x90, 0xBF), tail, tail]
  else if lead = 0xF4 then [(0x80, 0x8F), tail, tail]
  else if 0xF1 ≤ lead ∧ lead ≤ 0xF3 then [tail, tail, tail]
  else []

/-- How many bytes from the front on are in the ranges, one after the other. -/
def countInRanges : List (UInt8 × UInt8) → List UInt8 → Nat
  | (low, high) :: ranges, byte :: bytes =>
    if low ≤ byte ∧ byte ≤ high then countInRanges ranges bytes + 1 else 0
  | _, _ => 0

/-- The text of any bytes for a reader: where no character is in UTF-8 form, one U+FFFD stands for
the longest front that a character could have begun with. -/
def ofUtf8Lossy : List UInt8 → Text
  | [] => []
  | lead :: rest =>
    match (lead :: rest).toByteArray.utf8DecodeChar? 0 with
    | some c => c :: ofUtf8Lossy ((lead :: rest).drop c.utf8Size)
    | none => '\uFFFD' :: ofUtf8Lossy (rest.drop (countInRanges (followers lead) rest))
  termination_by bytes => bytes.length
  decreasing_by
    · have hpos := c.utf8Size_pos
      simp only [List.length_drop, List.length_cons]
      omega
    · simp only [List.length_drop, List.length_cons]
      omega

/-- What is in UTF-8 form is read as it is. -/
@[simp]
theorem ofUtf8Lossy_utf8 (text : Text) : ofUtf8Lossy (utf8 text) = text := by
  induction text with
  | nil => rw [utf8, List.flatMap_nil, ofUtf8Lossy]
  | cons c rest ih =>
    have hform : utf8 (c :: rest) = String.utf8EncodeChar c ++ utf8 rest := List.flatMap_cons
    obtain ⟨lead, tail, hlead⟩ : ∃ lead tail, String.utf8EncodeChar c = lead :: tail :=
      List.exists_cons_of_length_pos (by rw [String.length_utf8EncodeChar]; exact c.utf8Size_pos)
    have hdecode : (lead :: (tail ++ utf8 rest)).toByteArray.utf8DecodeChar? 0 = some c := by
      rw [← List.cons_append, ← hlead, List.toByteArray_append]
      exact ByteArray.utf8DecodeChar?_utf8EncodeChar_append
    rw [hform, hlead, List.cons_append, ofUtf8Lossy, hdecode]
    simp only
    rw [← List.cons_append, ← hlead, ← String.length_utf8EncodeChar c, List.drop_left, ih]

/-- A lead byte with one of the two bytes that belong to it, and a byte that begins no character. -/
example : ofUtf8Lossy [0xE2, 0x82, 0x62, 0xC0] = ['\uFFFD', 'b', '\uFFFD'] := by decide +kernel

/-- Two texts differ in their UTF-8 forms. -/
theorem utf8_injective : Function.Injective utf8 := by
  intro a b heq
  rw [← ofUtf8Lossy_utf8 a, heq, ofUtf8Lossy_utf8]

@[simp]
theorem byteSize_nil : byteSize [] = 0 := rfl

@[simp]
theorem byteSize_cons (c : Char) (text : Text) :
    byteSize (c :: text) = c.utf8Size + byteSize text := rfl

@[simp]
theorem byteSize_append (a b : Text) : byteSize (a ++ b) = byteSize a + byteSize b := by
  induction a with
  | nil => simp
  | cons c a ih => simp only [List.cons_append, byteSize_cons, ih, Nat.add_assoc]

/-! ## Letters and digits -/

/-- The text with `A` to `Z` in lower case and all else as it is. -/
def asciiLower (text : Text) : Text :=
  text.map Char.toLower

@[simp]
theorem length_asciiLower (text : Text) : (asciiLower text).length = text.length := by
  simp [asciiLower]

/-- A number in decimal digits, without leading zeros. -/
def decimal (n : Nat) : Text :=
  Nat.toDigits 10 n

/-- The number that a non-empty run of decimal digits denotes. -/
def readDecimal? (text : Text) : Option Nat :=
  if text ≠ [] ∧ text.all Char.isDigit then
    some (text.foldl (fun value digit => 10 * value + (digit.toNat - '0'.toNat)) 0)
  else
    none

/-! ## Fronts and ends -/

/-- What follows `lead` in a text that begins with it. -/
def dropLead? : (lead text : Text) → Option Text
  | [], text => some text
  | _ :: _, [] => none
  | a :: lead, b :: text => if a = b then dropLead? lead text else none

/-- What comes before `tail` in a text that ends with it. -/
def dropTail? (tail text : Text) : Option Text :=
  (dropLead? tail.reverse text.reverse).map List.reverse

theorem dropLead?_eq_some_iff {lead text rest : Text} :
    dropLead? lead text = some rest ↔ text = lead ++ rest := by
  induction lead generalizing text with
  | nil => simp [dropLead?]
  | cons a lead ih =>
    cases text with
    | nil => simp [dropLead?]
    | cons b text =>
      by_cases h : a = b
      · subst h
        simp [dropLead?, ih]
      · simp only [dropLead?, h, if_false, List.cons_append, List.cons.injEq]
        constructor
        · intro h'
          cases h'
        · intro h'
          exact absurd h'.1.symm h

theorem dropTail?_eq_some_iff {tail text rest : Text} :
    dropTail? tail text = some rest ↔ text = rest ++ tail := by
  simp only [dropTail?, Option.map_eq_some_iff, dropLead?_eq_some_iff]
  constructor
  · rintro ⟨r, h, rfl⟩
    have := congrArg List.reverse h
    simpa using this
  · rintro rfl
    exact ⟨rest.reverse, by simp, by simp⟩

/-! ## Cuts -/

/-- The texts before and after the first `sep`. -/
def cut (sep : Char) : Text → Option (Text × Text)
  | [] => none
  | c :: rest =>
    if c = sep then some ([], rest)
    else (cut sep rest).map fun (before, after) => (c :: before, after)

/-- The text up to the first `sep`, which is all of a text without one. -/
def upTo (sep : Char) (text : Text) : Text :=
  text.takeWhile (· ≠ sep)

/-- The pieces between the occurrences of `sep`; there is one more piece than there are
occurrences. -/
def splitOn (sep : Char) : Text → List Text
  | [] => [[]]
  | c :: rest =>
    if c = sep then [] :: splitOn sep rest
    else
      match splitOn sep rest with
      | [] => [[c]]
      | first :: others => (c :: first) :: others

/-- The text before the first occurrence of `pattern`, and the text from it on. -/
def seek (pattern : Text) : Text → Option (Text × Text)
  | [] => if pattern.isEmpty then some ([], []) else none
  | c :: rest =>
    if pattern.isPrefixOf (c :: rest) then some ([], c :: rest)
    else (seek pattern rest).map fun (before, found) => (c :: before, found)

/-- What follows the last occurrence of `pattern`. -/
def afterLast? (pattern text : Text) : Option Text :=
  (seek pattern.reverse text.reverse).map fun (after, _) => after.reverse

/-- The pieces one after the other with `glue` between neighbours. -/
def join (glue : Text) (pieces : List Text) : Text :=
  glue.intercalate pieces

theorem cut_eq_some {sep : Char} {text before after : Text}
    (h : cut sep text = some (before, after)) : text = before ++ sep :: after := by
  induction text generalizing before with
  | nil => simp [cut] at h
  | cons c rest ih =>
    by_cases hc : c = sep
    · simp only [cut, hc, if_true, Option.some.injEq, Prod.mk.injEq] at h
      simp [← h.1, ← h.2, hc]
    · simp only [cut, hc, if_false, Option.map_eq_some_iff, Prod.exists, Prod.mk.injEq] at h
      obtain ⟨b, a, hcut, rfl, rfl⟩ := h
      simp [ih hcut]

theorem seek_eq_some {pattern text before found : Text}
    (h : seek pattern text = some (before, found)) : text = before ++ found := by
  induction text generalizing before with
  | nil =>
    simp only [seek] at h
    split at h
    · simp only [Option.some.injEq, Prod.mk.injEq] at h
      simp [← h.1, ← h.2]
    · cases h
  | cons c rest ih =>
    simp only [seek] at h
    split at h
    · simp only [Option.some.injEq, Prod.mk.injEq] at h
      simp [← h.1, ← h.2]
    · simp only [Option.map_eq_some_iff, Prod.exists, Prod.mk.injEq] at h
      obtain ⟨b, a, hseek, rfl, rfl⟩ := h
      simp [ih hseek]

end Text

end ComponentLoader
