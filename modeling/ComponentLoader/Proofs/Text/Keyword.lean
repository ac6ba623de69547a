import ComponentLoader.Proofs.Text.Basic
import ComponentLoader.Proofs.Text.Space
import ComponentLoader.Text.Identifier
set_option autoImplicit false

/-!
# Laws of identifiers and keywords (SPEC §4.4)

An identifier ends where a character follows that may not stand in one, and no blank may.  So the
first word of a text is known however the text goes on behind it, and a keyword is found at the
front of a text exactly if it is that word.
-/

namespace ComponentLoader.Text

/-! ## Where words end -/

/-- No blank may stand in an identifier. -/
theorem isIdentifierChar_of_isSpace {c : Char} (h : isSpace c = true) :
    isIdentifierChar c = false := by
  let blanks : List Nat :=
    List.range' 0x9 5 ++ List.range' 0x2000 11 ++
      [0x20, 0x85, 0xA0, 0x1680, 0x2028, 0x2029, 0x202F, 0x205F, 0x3000]
  have hmem : c.toNat ∈ blanks := by
    simp only [isSpace, Bool.or_eq_true, Bool.and_eq_true, decide_eq_true_eq] at h
    simp only [blanks, List.mem_append, List.mem_range'_1, List.mem_cons, List.not_mem_nil,
      or_false]
    omega
  have hnone : ∀ n ∈ blanks,
      inRanges n alphanumericRanges = false ∧ n ≠ '_'.toNat ∧ n ≠ '$'.toNat := by
    decide +kernel
  obtain ⟨hranges, hunderscore, hdollar⟩ := hnone _ hmem
  have hunderscore' : c ≠ '_' := fun heq => hunderscore (heq ▸ rfl)
  have hdollar' : c ≠ '$' := fun heq => hdollar (heq ▸ rfl)
  simp [isIdentifierChar, isAlphanumeric, hranges, hunderscore', hdollar']

theorem isSpace_of_isIdentifierChar {c : Char} (h : isIdentifierChar c = true) :
    isSpace c = false := by
  cases hspace : isSpace c with
  | false => rfl
  | true => rw [isIdentifierChar_of_isSpace hspace] at h; cases h

/-- A word that stands in front of the text ends there. -/
def EndsWord (rest : Text) : Prop :=
  ∀ c ∈ rest.head?, isIdentifierChar c = false

theorem endsWord_nil : EndsWord [] := nofun

theorem endsWord_cons {c : Char} (h : isIdentifierChar c = false) (rest : Text) :
    EndsWord (c :: rest) := by
  rintro d ⟨⟩
  exact h

theorem endsWord_blanks {blanks : Text} (h : blanks.all isSpace = true) {rest : Text}
    (hrest : EndsWord rest) : EndsWord (blanks ++ rest) := by
  cases blanks with
  | nil => exact hrest
  | cons c others =>
      rw [List.all_cons, Bool.and_eq_true] at h
      exact endsWord_cons (isIdentifierChar_of_isSpace h.1) _

theorem EndsWord.upTo {rest : Text} (h : EndsWord rest) (sep : Char) :
    EndsWord (upTo sep rest) := by
  cases rest with
  | nil => exact h
  | cons c others =>
      unfold Text.upTo
      rw [List.takeWhile_cons]
      split
      · exact endsWord_cons (h c rfl) _
      · exact endsWord_nil

theorem EndsWord.trimEnd {rest : Text} (h : EndsWord rest) : EndsWord (trimEnd rest) :=
  fun c hc => h c (mem_head?_of_trimEnd hc)

/-! ## Words at the front -/

theorem identifier?_append {name rest : Text} (h : identifier? name = some name)
    (hrest : EndsWord rest) : identifier? (name ++ rest) = some name := by
  obtain ⟨-, hchars, -⟩ := identifier?_eq_some h
  have hnone : rest.takeWhile isIdentifierChar = [] := by
    cases rest with
    | nil => rfl
    | cons c others => simp [hrest c rfl]
  have hrun : (name ++ rest).takeWhile isIdentifierChar = name.takeWhile isIdentifierChar := by
    rw [List.takeWhile_append_of_pos hchars, hnone, List.append_nil,
      List.takeWhile_eq_self_iff.mpr hchars]
  rw [← h]
  unfold identifier?
  rw [hrun]

/-- A keyword is at the front of a text if the first word of it is the
keyword, and not otherwise. -/
theorem afterKeyword?_append {keyword word rest : Text}
    (hkeyword : ∀ c ∈ keyword, isIdentifierChar c = true)
    (hword : ∀ c ∈ word, isIdentifierChar c = true) (hrest : EndsWord rest) :
    afterKeyword? keyword (word ++ rest) =
      if word = keyword then some (trimStart rest) else none := by
  unfold afterKeyword?
  split
  · rename_i heq
    rw [heq, dropLead?_eq_some_iff.mpr rfl]
    cases rest with
    | nil => rfl
    | cons c others => simp [hrest c rfl]
  · rename_i hne
    cases hlead : dropLead? keyword (word ++ rest) with
    | none => rfl
    | some behind =>
        -- one of the two words is a part of the other, and the rest of it goes on with a letter
        rcases List.append_eq_append_iff.mp (dropLead?_eq_some_iff.mp hlead) with
          ⟨more, hlong, hbehind⟩ | ⟨more, hlong, hbehind⟩
        · cases more with
          | nil => exact absurd (by simpa using hlong.symm) hne
          | cons c others =>
              have hc := hrest c (by rw [hbehind]; rfl)
              rw [hkeyword c (by rw [hlong]; simp)] at hc
              cases hc
        · cases more with
          | nil => exact absurd (by simpa using hlong) hne
          | cons c others =>
              have hc := hword c (by rw [hlong]; simp)
              simp [hbehind, hc]

end ComponentLoader.Text
