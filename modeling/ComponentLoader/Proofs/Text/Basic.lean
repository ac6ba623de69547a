import ComponentLoader.Text.Basic
set_option autoImplicit false

/-!
# Laws of texts

Decimal numbers can be read back, and texts that were put around a separator can be told apart again
if they do not hold the separator themselves.
-/

namespace ComponentLoader.Text

/-- Letters take as many bytes in lower case. -/
theorem utf8Size_toLower (c : Char) : c.toLower.utf8Size = c.utf8Size := by
  unfold Char.toLower
  split
  · rename_i hupper
    have hz : 'Z'.val.toNat = 90 ∧ ('a'.val - 'A'.val).toNat = 32 := ⟨rfl, rfl⟩
    have hsmall : c.val.toNat ≤ 90 := hz.1 ▸ UInt32.le_iff_toNat_le.mp hupper.2
    have hlower : (c.val + ('a'.val - 'A'.val)).toNat ≤ 127 := by
      rw [UInt32.toNat_add, hz.2]
      omega
    rw [Char.utf8Size_eq_one_iff.mpr (UInt32.le_iff_toNat_le.mpr hlower),
      Char.utf8Size_eq_one_iff.mpr (UInt32.le_iff_toNat_le.mpr (Nat.le_trans hsmall (by decide)))]
  · rfl

@[simp]
theorem byteSize_asciiLower (text : Text) : byteSize (asciiLower text) = byteSize text := by
  induction text with
  | nil => rfl
  | cons c rest ih =>
      rw [asciiLower, List.map_cons, byteSize_cons, byteSize_cons, utf8Size_toLower]
      exact congrArg _ ih

/-- Nothing but a letter is the lower case of another character. -/
theorem eq_of_toLower {c d : Char} (h : c.toLower = d) (hd : ¬('a' ≤ d ∧ d ≤ 'z')) : c = d := by
  unfold Char.toLower at h
  split at h
  · rename_i hupper
    subst h
    refine absurd ?_ hd
    have ha : 'A'.val.toNat = 65 ∧ 'a'.val.toNat = 97 := ⟨rfl, rfl⟩
    have hz : 'Z'.val.toNat = 90 ∧ 'z'.val.toNat = 122 := ⟨rfl, rfl⟩
    simp only [Char.le_def, ge_iff_le, UInt32.le_iff_toNat_le, UInt32.toNat_add,
      UInt32.toNat_sub] at hupper ⊢
    omega
  · exact h

/-- A character that is no letter is in a text exactly if it is there in lower case. -/
theorem mem_asciiLower_iff {c : Char} (hc : c.toLower = c) (hletter : ¬('a' ≤ c ∧ c ≤ 'z'))
    {text : Text} : c ∈ asciiLower text ↔ c ∈ text := by
  unfold asciiLower
  rw [List.mem_map]
  constructor
  · rintro ⟨d, hmem, hlower⟩
    rwa [← eq_of_toLower hlower hletter]
  · exact fun hmem => ⟨c, hmem, hc⟩

/-- A cut finds the separator after a text that does not hold it. -/
theorem cut_append_cons {sep : Char} {before : Text} (h : sep ∉ before) (after : Text) :
    cut sep (before ++ sep :: after) = some (before, after) := by
  induction before with
  | nil => simp [cut]
  | cons c rest ih =>
      obtain ⟨hc, hrest⟩ := not_or.mp (fun hmem => h (List.mem_cons.mpr hmem))
      have hne : c ≠ sep := fun heq => hc heq.symm
      rw [List.cons_append, cut, if_neg hne, ih hrest]
      rfl

theorem cut_eq_none_iff {sep : Char} {text : Text} : cut sep text = none ↔ sep ∉ text := by
  induction text with
  | nil => simp [cut]
  | cons c rest ih =>
      by_cases hc : c = sep
      · simp [cut, hc]
      · have hne : sep ≠ c := fun h => hc h.symm
        simp [cut, hc, hne, ih]

/-- What a cut leaves in front does not hold the separator. -/
theorem not_mem_of_cut_eq_some {sep : Char} {text before after : Text}
    (h : cut sep text = some (before, after)) : sep ∉ before := by
  induction text generalizing before with
  | nil => simp [cut] at h
  | cons c rest ih =>
      by_cases hc : c = sep
      · simp only [cut, if_pos hc, Option.some.injEq, Prod.mk.injEq] at h
        simp [← h.1]
      · have hne : sep ≠ c := fun h => hc h.symm
        simp only [cut, if_neg hc, Option.map_eq_some_iff] at h
        obtain ⟨found, hcut, heq⟩ := h
        cases heq
        simp [hne, ih hcut]

/-- A text without the separator is passed over. -/
theorem upTo_append {sep : Char} {front : Text} (h : sep ∉ front) (rest : Text) :
    upTo sep (front ++ rest) = front ++ upTo sep rest := by
  have hfront : ∀ c ∈ front, (c ≠ sep) := fun c hmem heq => h (heq ▸ hmem)
  exact List.takeWhile_append_of_pos (by simpa using hfront)

theorem upTo_append_cons {sep : Char} {before : Text} (h : sep ∉ before) (after : Text) :
    upTo sep (before ++ sep :: after) = before := by
  rw [upTo_append h]
  simp [upTo]

theorem upTo_of_not_mem {sep : Char} {text : Text} (h : sep ∉ text) : upTo sep text = text := by
  have hall := upTo_append h []
  simpa [upTo] using hall

/-- What stands around a separator is determined by the whole. -/
theorem append_cons_inj {sep : Char} {before before' after after' : Text} (h : sep ∉ before)
    (h' : sep ∉ before') (heq : before ++ sep :: after = before' ++ sep :: after') :
    before = before' ∧ after = after' := by
  have hcut := cut_append_cons h after
  rw [heq, cut_append_cons h' after'] at hcut
  cases hcut
  exact ⟨rfl, rfl⟩

/-- A part of a text without the separator is on one side of it. -/
theorem part_beside {sep : Char} {part front rest before after : Text} (hsep : sep ∉ part)
    (hne : part ≠ []) (h : front ++ sep :: rest = before ++ (part ++ after)) :
    (∃ behind, front = before ++ (part ++ behind)) ∨
      ∃ ahead, before = front ++ sep :: ahead ∧ rest = ahead ++ (part ++ after) := by
  rcases List.append_eq_append_iff.mp h with ⟨ahead, hbefore, hrest⟩ | ⟨more, hfront, hpart⟩
  · cases ahead with
    | nil =>
        obtain ⟨d, others, rfl⟩ := List.exists_cons_of_ne_nil hne
        obtain ⟨rfl, -⟩ := List.cons.inj hrest
        exact absurd List.mem_cons_self hsep
    | cons d ahead =>
        obtain ⟨rfl, hrest'⟩ := List.cons.inj hrest
        exact Or.inr ⟨ahead, hbefore, hrest'⟩
  · rcases List.append_eq_append_iff.mp hpart with ⟨behind, hmore, -⟩ | ⟨last, hlast, hrest⟩
    · exact Or.inl ⟨behind, by rw [hfront, hmore]⟩
    · cases last with
      | nil => exact Or.inl ⟨[], by rw [hfront, hlast]; simp⟩
      | cons d last =>
          obtain ⟨rfl, -⟩ := List.cons.inj hrest
          exact absurd (by simp [hlast]) hsep

theorem decimal_inj {m n : Nat} (h : decimal m = decimal n) : m = n := by
  calc
    m = Nat.ofDigitChars 10 (decimal m) 0 := Nat.ofDigitChars_ten_toDigits.symm
    _ = Nat.ofDigitChars 10 (decimal n) 0 := by rw [h]
    _ = n := Nat.ofDigitChars_ten_toDigits

/-- A decimal number holds digits only. -/
theorem not_mem_decimal {c : Char} (hc : c.isDigit = false) (n : Nat) : c ∉ decimal n := by
  intro hmem
  have hdigit : c.isDigit = true := Nat.isDigit_of_mem_toDigits (by decide) (by decide) hmem
  rw [hc] at hdigit
  cases hdigit

theorem readDecimal?_decimal (n : Nat) : readDecimal? (decimal n) = some n := by
  have hne : decimal n ≠ [] := by
    intro hnil
    have hlength : 0 < (Nat.toDigits 10 n).length := Nat.length_toDigits_pos
    rw [show Nat.toDigits 10 n = [] from hnil] at hlength
    cases hlength
  have hdigits : (decimal n).all Char.isDigit = true := by
    rw [List.all_eq_true]
    exact fun c hmem => Nat.isDigit_of_mem_toDigits (by decide) (by decide) hmem
  unfold readDecimal?
  rw [if_pos ⟨hne, hdigits⟩]
  exact congrArg some Nat.ofDigitChars_ten_toDigits

/-! ## Pieces -/

@[simp]
theorem join_nil (glue : Text) : join glue [] = [] := rfl

@[simp]
theorem join_singleton (glue piece : Text) : join glue [piece] = piece :=
  List.intercalate_singleton

@[simp]
theorem join_cons_cons (glue piece next : Text) (others : List Text) :
    join glue (piece :: next :: others) = piece ++ (glue ++ join glue (next :: others)) := by
  rw [join, List.intercalate_cons_cons, List.append_assoc, join]

theorem join_cons_of_ne_nil (glue piece : Text) {others : List Text} (h : others ≠ []) :
    join glue (piece :: others) = piece ++ (glue ++ join glue others) := by
  obtain ⟨next, rest, rfl⟩ := List.exists_cons_of_ne_nil h
  exact join_cons_cons glue piece next rest

theorem join_nil_glue (pieces : List Text) : join [] pieces = pieces.flatten := by
  induction pieces with
  | nil => rfl
  | cons piece others ih =>
      cases others with
      | nil => simp
      | cons next more => rw [join_cons_cons, ih, List.nil_append, ← List.flatten_cons]

theorem join_append_cons (glue front piece : Text) (others : List Text) :
    join glue ((front ++ piece) :: others) = front ++ join glue (piece :: others) := by
  cases others with
  | nil => simp
  | cons next more => simp

/-- The first piece stands at the front of the joined text. -/
theorem mem_head?_join (glue : Text) {piece : Text} {pieces : List Text} (h : piece ∈ pieces.head?)
    {c : Char} (hc : c ∈ piece.head?) : c ∈ (join glue pieces).head? := by
  obtain ⟨others, rfl⟩ := List.head?_eq_some_iff.mp h
  obtain ⟨rest, rfl⟩ := List.head?_eq_some_iff.mp hc
  cases others with
  | nil => simp
  | cons next others => simp

/-- The last piece stands at the end of the joined text. -/
theorem mem_getLast?_join (glue : Text) {piece : Text} {pieces : List Text}
    (h : piece ∈ pieces.getLast?) {c : Char} (hc : c ∈ piece.getLast?) :
    c ∈ (join glue pieces).getLast? := by
  induction pieces with
  | nil => cases h
  | cons first others ih =>
      cases others with
      | nil =>
          obtain rfl : first = piece := Option.some.inj h
          simpa using hc
      | cons next others =>
          rw [join_cons_cons, List.getLast?_append, List.getLast?_append, ih (by simpa using h)]
          rfl

theorem not_mem_join {glue : Text} {pieces : List Text} {c : Char} (hglue : c ∉ glue)
    (h : ∀ piece ∈ pieces, c ∉ piece) : c ∉ join glue pieces := by
  induction pieces with
  | nil => exact List.not_mem_nil
  | cons piece others ih =>
      obtain ⟨hpiece, hothers⟩ := List.forall_mem_cons.mp h
      cases others with
      | nil => simpa using hpiece
      | cons next more => simpa [hglue, hpiece] using ih hothers

theorem splitOn_of_not_mem {sep : Char} {text : Text} (h : sep ∉ text) :
    splitOn sep text = [text] := by
  induction text with
  | nil => rfl
  | cons c rest ih =>
      obtain ⟨hc, hrest⟩ := not_or.mp (fun hmem => h (List.mem_cons.mpr hmem))
      have hne : c ≠ sep := fun heq => hc heq.symm
      rw [splitOn, if_neg hne, ih hrest]

theorem splitOn_ne_nil (sep : Char) (text : Text) : splitOn sep text ≠ [] := by
  cases text with
  | nil => simp [splitOn]
  | cons c rest =>
      unfold splitOn
      split
      · simp
      · split <;> simp

/-- The pieces of a text are those before a separator and those after it. -/
theorem splitOn_append (sep : Char) (front rest : Text) :
    splitOn sep (front ++ sep :: rest) = splitOn sep front ++ splitOn sep rest := by
  induction front with
  | nil => simp [splitOn]
  | cons c others ih =>
      rw [List.cons_append, splitOn, splitOn, ih]
      by_cases hc : c = sep
      · rw [if_pos hc, if_pos hc, List.cons_append]
      · rw [if_neg hc, if_neg hc]
        cases hpieces : splitOn sep others with
        | nil => exact absurd hpieces (splitOn_ne_nil sep others)
        | cons first pieces => rfl

theorem splitOn_append_cons {sep : Char} {piece : Text} (h : sep ∉ piece) (rest : Text) :
    splitOn sep (piece ++ sep :: rest) = piece :: splitOn sep rest := by
  rw [splitOn_append, splitOn_of_not_mem h, List.singleton_append]

/-- Pieces that do not hold the separator are told apart again. -/
theorem splitOn_join {sep : Char} {pieces : List Text} (hne : pieces ≠ [])
    (h : ∀ piece ∈ pieces, sep ∉ piece) : splitOn sep (join [sep] pieces) = pieces := by
  induction pieces with
  | nil => exact absurd rfl hne
  | cons piece others ih =>
      have hpiece : sep ∉ piece := h piece List.mem_cons_self
      cases others with
      | nil => rw [join_singleton, splitOn_of_not_mem hpiece]
      | cons next more =>
          have hothers : ∀ other ∈ next :: more, sep ∉ other :=
            fun other hmem => h other (List.mem_cons_of_mem _ hmem)
          rw [join_cons_cons, List.singleton_append, splitOn_append_cons hpiece,
            ih (List.cons_ne_nil _ _) hothers]

/-- The pieces of a text make it up again. -/
theorem join_splitOn (sep : Char) (text : Text) : join [sep] (splitOn sep text) = text := by
  induction text with
  | nil => rfl
  | cons c rest ih =>
      unfold splitOn
      split
      · rename_i hc
        rw [join_cons_of_ne_nil _ _ (splitOn_ne_nil sep rest), ih, hc]
        rfl
      · cases hpieces : splitOn sep rest with
        | nil => exact absurd hpieces (splitOn_ne_nil sep rest)
        | cons first others =>
            rw [hpieces] at ih
            exact (join_append_cons [sep] [c] first others).trans (congrArg (c :: ·) ih)

theorem not_mem_of_mem_splitOn {sep : Char} {text piece : Text}
    (h : piece ∈ splitOn sep text) : sep ∉ piece := by
  induction text generalizing piece with
  | nil =>
      rw [List.mem_singleton.mp h]
      exact List.not_mem_nil
  | cons c rest ih =>
      unfold splitOn at h
      split at h
      · rcases List.mem_cons.mp h with rfl | hrest
        · exact List.not_mem_nil
        · exact ih hrest
      · rename_i hc
        have hne : sep ≠ c := fun heq => hc heq.symm
        split at h
        · rw [List.mem_singleton.mp h]
          simpa using hne
        · rename_i first others hpieces
          rcases List.mem_cons.mp h with rfl | hothers
          · have hfirst : sep ∉ first := ih (hpieces ▸ List.mem_cons_self)
            simp [hne, hfirst]
          · exact ih (hpieces ▸ List.mem_cons_of_mem _ hothers)

/-- Every character but the separator is in one of the pieces. -/
theorem mem_splitOn_iff {sep c : Char} (h : c ≠ sep) {text : Text} :
    (∃ piece ∈ splitOn sep text, c ∈ piece) ↔ c ∈ text := by
  induction text with
  | nil => simp [splitOn]
  | cons d rest ih =>
      rw [List.mem_cons, ← ih, splitOn]
      split
      · rename_i hd
        simp [hd, h]
      · split
        · rename_i hpieces
          simp [hpieces]
        · rename_i first others hpieces
          simp [hpieces, or_assoc]

end ComponentLoader.Text
