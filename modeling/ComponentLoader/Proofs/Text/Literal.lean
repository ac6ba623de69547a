import ComponentLoader.Text.Literal
set_option autoImplicit false

/-!
# Laws of literals (SPEC §4.4)

A literal that was written is read back, whatever the text (`unquote?_quote`): one character at a
time, the form that is written for it is the one that is read (`literalBody?_escapeChar`).  No line
ends inside a literal that was written.
-/

namespace ComponentLoader.Text

/-! ## Digits -/

/-- The digits of a number below sixteen are read as that number. -/
theorem hexValue?_hexDigit {n : Nat} (h : n < 16) : hexValue? (hexDigit n) = some n := by
  have hall : ∀ m : Fin 16, hexValue? (hexDigit m) = some m.val := by decide
  exact hall ⟨n, h⟩

theorem codeUnit?_hexDigit {n : Nat} (h : n < 0x20) :
    codeUnit? '0' '0' (hexDigit (n / 16)) (hexDigit (n % 16)) = some n := by
  have hzero : hexValue? '0' = some 0 := by decide
  have hhigh := hexValue?_hexDigit (show n / 16 < 16 by omega)
  have hlow := hexValue?_hexDigit (Nat.mod_lt n (show 0 < 16 by decide))
  unfold codeUnit?
  simp only [hzero, hhigh, hlow, Option.bind_eq_bind, Option.bind_some, Option.pure_def,
    Option.some.injEq]
  omega

/-! ## Characters -/

/-- A character in front of what a literal goes on with. -/
def consBody (c : Char) (body : Option (Text × Text)) : Option (Text × Text) :=
  body.map fun (text, after) => (c :: text, after)

/-- A character that stands for itself: no quote, no backslash and no control character. -/
theorem literalBody?_plain {c : Char} (hquote : c ≠ '"') (hslash : c ≠ '\\')
    (hcontrol : ¬ c.toNat < 0x20) (rest : Text) :
    literalBody? (c :: rest) = consBody c (literalBody? rest) := by
  rw [literalBody?]
  · rw [if_neg hcontrol]
    rfl
  · exact hquote
  · intro a b d e others hc _
    exact hslash hc
  · intro letter others hc _
    exact hslash hc

theorem literalBody?_simple {letter c : Char} (h : simpleEscape? letter = some c) (rest : Text) :
    literalBody? ('\\' :: letter :: rest) = consBody c (literalBody? rest) := by
  rw [literalBody?]
  · rw [h]
    rfl
  · intro a b d e others hletter _
    rw [hletter] at h
    cases h

/-- A control character is written with the four digits of its number, which
is no half of a pair. -/
theorem literalBody?_control {c : Char} (h : c.toNat < 0x20) (rest : Text) :
    literalBody? ('\\' :: 'u' :: '0' :: '0' :: hexDigit (c.toNat / 16) :: hexDigit (c.toNat % 16) ::
      rest) = consBody c (literalBody? rest) := by
  rw [literalBody?, codeUnit?_hexDigit h]
  simp only
  rw [if_neg (by omega), if_neg (by omega), Char.ofNat_toNat]
  rfl

/-- A character is written as a letter, as its number, or as itself. -/
theorem escapeChar_cases (c : Char) :
    (∃ letter, simpleEscape? letter = some c ∧ letter ≠ '\n' ∧ escapeChar c = ['\\', letter]) ∨
    (c.toNat < 0x20 ∧ escapeChar c =
      ['\\', 'u', '0', '0', hexDigit (c.toNat / 16), hexDigit (c.toNat % 16)]) ∨
    (c ≠ '"' ∧ c ≠ '\\' ∧ ¬ c.toNat < 0x20 ∧ escapeChar c = [c]) := by
  fun_cases escapeChar c with
  | case1 | case2 | case3 | case4 | case5 | case6 | case7 =>
      rename_i h
      subst h
      exact Or.inl ⟨_, rfl, by decide, rfl⟩
  | case8 => exact Or.inr (Or.inl ⟨by assumption, rfl⟩)
  | case9 hquote hslash => exact Or.inr (Or.inr ⟨hquote, hslash, by assumption, rfl⟩)

/-- The form that is written for a character is read as that character. -/
theorem literalBody?_escapeChar (c : Char) (rest : Text) :
    literalBody? (escapeChar c ++ rest) = consBody c (literalBody? rest) := by
  obtain ⟨letter, hletter, -, heq⟩ | ⟨hcontrol, heq⟩ | ⟨hquote, hslash, hcontrol, heq⟩ :=
    escapeChar_cases c
  · rw [heq]
    exact literalBody?_simple hletter rest
  · rw [heq]
    exact literalBody?_control hcontrol rest
  · rw [heq]
    exact literalBody?_plain hquote hslash hcontrol rest

/-! ## Literals -/

theorem literalBody?_flatMap (text after : Text) :
    literalBody? (text.flatMap escapeChar ++ '"' :: after) = some (text, after) := by
  induction text with
  | nil => rw [List.flatMap_nil, List.nil_append, literalBody?]
  | cons c rest ih =>
      rw [List.flatMap_cons, List.append_assoc, literalBody?_escapeChar, ih]
      rfl

/-- A literal that was written is read back. -/
theorem unquote?_quote (text : Text) : unquote? (quote text) = some text := by
  unfold unquote? quote
  rw [List.cons_append, List.dropWhile_cons_of_neg (by decide)]
  simp only [literalBody?_flatMap, List.all_nil, if_true]

/-- A literal begins with its quote, and nothing else does. -/
theorem unquote?_eq_none_of_head {c : Char} (hquote : c ≠ '"') (hblank : isLiteralBlank c = false)
    (rest : Text) : unquote? (c :: rest) = none := by
  unfold unquote?
  rw [List.dropWhile_cons_of_neg (by simp [hblank])]
  split
  · rename_i heq
    cases heq
    exact absurd rfl hquote
  · rfl

theorem hexDigit_ne_newline {n : Nat} (h : n < 16) : hexDigit n ≠ '\n' := by
  have hall : ∀ m : Fin 16, hexDigit m ≠ '\n' := by decide
  exact hall ⟨n, h⟩

/-- Line ends are escaped. -/
theorem newline_not_mem_quote (text : Text) : '\n' ∉ quote text := by
  have hescape (c : Char) : '\n' ∉ escapeChar c := by
    obtain ⟨letter, -, hletter, heq⟩ | ⟨hcontrol, heq⟩ | ⟨-, -, hcontrol, heq⟩ := escapeChar_cases c
    · simp [heq, hletter.symm]
    · have hhigh := hexDigit_ne_newline (show c.toNat / 16 < 16 by omega)
      have hlow := hexDigit_ne_newline (Nat.mod_lt c.toNat (show 0 < 16 by decide))
      simp [heq, hhigh.symm, hlow.symm]
    · have hplain : '\n' ≠ c := by
        rintro rfl
        exact hcontrol (by decide)
      simp [heq, hplain]
  simp [quote, hescape]

end ComponentLoader.Text
