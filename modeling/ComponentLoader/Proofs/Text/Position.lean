import ComponentLoader.Text.Line
import ComponentLoader.Text.Space
import Mathlib.Data.List.TakeWhile
set_option autoImplicit false

/-!
# Places in a text (SPEC §4.4)

A position counts lines that end at a carriage return, at a line feed, or at the two in this
order.  `rows` cuts a text into these lines, without their bounds and without counting anything.
What stands in a row is found at its place (`exists_standsAt`): the number of rows above it and of
the bytes in front of it.

The one way for a position to depend on what follows it is between a carriage return and a line
feed, and a character that ends no row does not stand there.
-/

namespace ComponentLoader.Text

/-! ## Rows -/

/-- The lines of a text as positions count them, without what ends them. -/
def rows : Text → List Text
  | [] => [[]]
  | '\r' :: '\n' :: rest => [] :: rows rest
  | '\r' :: rest => [] :: rows rest
  | '\n' :: rest => [] :: rows rest
  | c :: rest => consFirst c (rows rest)

/-- Whether a character ends a row. -/
def EndsRow (c : Char) : Prop :=
  c = '\r' ∨ c = '\n'

theorem exists_rows_eq_cons (text : Text) : ∃ first others, rows text = first :: others := by
  fun_cases rows text with
  | case5 c rest => cases rows rest <;> exact ⟨_, _, rfl⟩
  | _ => exact ⟨_, _, rfl⟩

/-- Behind a row that has ended there is another one. -/
theorem exists_above_of_cons {text first head : Text} {above : List Text}
    (h : first :: rows text = above ++ [head]) :
    ∃ others, above = first :: others ∧ rows text = others ++ [head] := by
  cases above with
  | nil =>
      obtain ⟨row, more, hrows⟩ := exists_rows_eq_cons text
      rw [hrows] at h
      cases h
  | cons row others =>
      obtain ⟨rfl, htext⟩ := List.cons.inj h
      exact ⟨others, rfl, htext⟩

/-- A character in front of a text is in the first row, which may be the last one too. -/
theorem exists_above_of_consFirst {c : Char} {text head : Text} {above : List Text}
    (h : consFirst c (rows text) = above ++ [head]) :
    (above = [] ∧ ∃ tail, head = c :: tail ∧ rows text = [tail]) ∨
      ∃ row others, above = (c :: row) :: others ∧ rows text = (row :: others) ++ [head] := by
  obtain ⟨row, more, hrows⟩ := exists_rows_eq_cons text
  rw [hrows] at h ⊢
  cases above with
  | nil =>
      obtain ⟨rfl, rfl⟩ := List.cons.inj h
      exact Or.inl ⟨rfl, row, rfl, rfl⟩
  | cons first others =>
      obtain ⟨rfl, rfl⟩ := List.cons.inj h
      exact Or.inr ⟨row, others, rfl, rfl⟩

theorem append_ne_cons {c : Char} {a b : Text} (ha : ∀ rest, a ≠ c :: rest)
    (hb : ∀ rest, b ≠ c :: rest) (rest : Text) : a ++ b ≠ c :: rest := by
  cases a with
  | nil => exact hb rest
  | cons d more =>
      intro h
      obtain ⟨rfl, -⟩ := List.cons.inj h
      exact ha more rfl

theorem rows_return {text : Text} (h : ∀ rest, text ≠ '\n' :: rest) :
    rows ('\r' :: text) = [] :: rows text := by
  rw [rows]
  exact h

theorem rows_cons {c : Char} (h : ¬EndsRow c) (text : Text) :
    rows (c :: text) = consFirst c (rows text) := by
  obtain ⟨hreturn, hfeed⟩ := not_or.mp h
  rw [rows]
  · exact fun _ heq _ => hreturn heq
  · exact hreturn
  · exact hfeed

/-- A text has the rows of its two parts, but the last of the first part and the first of the second
one are a single row. -/
theorem rows_append {before after head tail : Text} {above below : List Text}
    (hafter : ∀ rest, after ≠ '\n' :: rest) (hhead : rows before = above ++ [head])
    (htail : rows after = tail :: below) :
    rows (before ++ after) = above ++ (head ++ tail) :: below := by
  fun_induction rows before generalizing above head with
  | case1 =>
      cases above with
      | nil =>
          cases hhead
          exact htail
      | cons row others => simp at hhead
  | case2 rest ih =>
      obtain ⟨others, rfl, hrest⟩ := exists_above_of_cons hhead
      exact congrArg ([] :: ·) (ih hrest)
  | case3 rest hfeed ih =>
      obtain ⟨others, rfl, hrest⟩ := exists_above_of_cons hhead
      rw [List.cons_append, rows_return (append_ne_cons hfeed hafter), ih hrest]
      rfl
  | case4 rest ih =>
      obtain ⟨others, rfl, hrest⟩ := exists_above_of_cons hhead
      exact congrArg ([] :: ·) (ih hrest)
  | case5 c rest _ hreturn hfeed ih =>
      rw [List.cons_append, rows_cons (not_or.mpr ⟨hreturn, hfeed⟩)]
      rcases exists_above_of_consFirst hhead with ⟨rfl, row, rfl, hrest⟩ | ⟨row, others, rfl, hrest⟩
      · have hrows : rows (rest ++ after) = [] ++ (row ++ tail) :: below := ih hrest
        rw [hrows]
        rfl
      · rw [ih hrest]
        rfl

/-- A text that no row ends in stands at the front of its row. -/
theorem rows_append_of_no_end {text tail after : Text} {below : List Text}
    (h : ∀ c ∈ text, ¬EndsRow c) (htail : rows after = tail :: below) :
    rows (text ++ after) = (text ++ tail) :: below := by
  induction text with
  | nil => exact htail
  | cons c rest ih =>
      obtain ⟨hc, hrest⟩ := List.forall_mem_cons.mp h
      rw [List.cons_append, rows_cons hc, ih hrest]
      rfl

theorem utf8Size_return : '\r'.utf8Size = 1 := rfl

theorem utf8Size_feed : '\n'.utf8Size = 1 := rfl

/-- A row costs a byte, and so does every character in it. -/
theorem length_add_byteSize_le {text head : Text} {above : List Text}
    (h : rows text = above ++ [head]) :
    above.length + byteSize head ≤ byteSize text := by
  fun_induction rows text generalizing above head with
  | case1 =>
      cases above with
      | nil =>
          cases h
          exact Nat.le_refl _
      | cons row others => simp at h
  | case2 rest ih =>
      obtain ⟨others, rfl, hrest⟩ := exists_above_of_cons h
      have hle := ih hrest
      simp only [List.length_cons, byteSize_cons, utf8Size_return, utf8Size_feed]
      omega
  | case3 rest _ ih =>
      obtain ⟨others, rfl, hrest⟩ := exists_above_of_cons h
      have hle := ih hrest
      simp only [List.length_cons, byteSize_cons, utf8Size_return]
      omega
  | case4 rest ih =>
      obtain ⟨others, rfl, hrest⟩ := exists_above_of_cons h
      have hle := ih hrest
      simp only [List.length_cons, byteSize_cons, utf8Size_feed]
      omega
  | case5 c rest _ _ _ ih =>
      rcases exists_above_of_consFirst h with ⟨rfl, row, rfl, hrest⟩ | ⟨row, others, rfl, hrest⟩
      · have hle : ([] : List Text).length + byteSize row ≤ byteSize rest := ih hrest
        simp only [List.length_nil, byteSize_cons] at hle ⊢
        omega
      · have hle := ih hrest
        simp only [List.length_cons, byteSize_cons] at hle ⊢
        omega

/-! ## Spans -/

theorem spansFrom_return {text : Text} (h : ∀ rest, text ≠ '\n' :: rest) (start here : Nat) :
    spansFrom start here ('\r' :: text) =
      ⟨start, here⟩ :: spansFrom (here + 1) (here + 1) text := by
  rw [spansFrom]
  exact h

theorem spansFrom_cons {c : Char} (h : ¬EndsRow c) (start here : Nat) (text : Text) :
    spansFrom start here (c :: text) = spansFrom start (here + c.utf8Size) text := by
  obtain ⟨hreturn, hfeed⟩ := not_or.mp h
  rw [spansFrom]
  · exact fun _ heq _ => hreturn heq
  · exact hreturn
  · exact hfeed

/-- The first line starts where it is said to start, and it does not stop in front of the text. -/
theorem exists_spansFrom_eq_cons (start here : Nat) (text : Text) :
    ∃ stop others, spansFrom start here text = ⟨start, stop⟩ :: others ∧ here ≤ stop := by
  fun_induction spansFrom start here text with
  | case5 start here c rest _ _ _ ih =>
      obtain ⟨stop, others, hspans, hstop⟩ := ih
      exact ⟨stop, others, hspans, by omega⟩
  | _ => exact ⟨_, _, rfl, Nat.le_refl _⟩

theorem stop_le_of_mem_spansFrom {start here : Nat} {text : Text} {span : LineSpan}
    (h : span ∈ spansFrom start here text) : span.stop ≤ here + byteSize text := by
  fun_induction spansFrom start here text with
  | case1 start here =>
      obtain rfl := List.mem_singleton.mp h
      exact Nat.le_refl _
  | case2 start here rest ih =>
      simp only [byteSize_cons, utf8Size_return, utf8Size_feed]
      rcases List.mem_cons.mp h with rfl | h
      · exact Nat.le_add_right _ _
      · have hstop := ih h
        omega
  | case3 start here rest _ ih =>
      simp only [byteSize_cons, utf8Size_return]
      rcases List.mem_cons.mp h with rfl | h
      · exact Nat.le_add_right _ _
      · have hstop := ih h
        omega
  | case4 start here rest ih =>
      simp only [byteSize_cons, utf8Size_feed]
      rcases List.mem_cons.mp h with rfl | h
      · exact Nat.le_add_right _ _
      · have hstop := ih h
        omega
  | case5 start here c rest _ _ _ ih =>
      have hstop := ih h
      rw [byteSize_cons]
      omega

theorem lineSpans_eq {text : Text} (h : byteSize text ≤ maxOffset) :
    lineSpans text = spansFrom 0 0 text := by
  refine List.takeWhile_eq_self_iff.mpr fun span hspan => ?_
  have hstop := stop_le_of_mem_spansFrom hspan
  exact decide_eq_true (by omega)

/-! ## Places -/

theorem locateIn_skip {offset line : Nat} {span : LineSpan} (h : span.stop ≤ offset)
    (rest : List LineSpan) :
    locateIn offset line (span :: rest) = locateIn offset (line + 1) rest := by
  rw [locateIn, if_neg (by omega)]

/-- The place of a character, from the rows in front of it: the column is counted from the start of
the first row as long as there is no other one. -/
def placeBehind (start here line : Nat) (above : List Text) (head : Text) : Location :=
  ⟨.ofNat (line + above.length), .ofNat (byteSize head + if above = [] then here - start else 0)⟩

theorem placeBehind_cons (start here line next : Nat) (row : Text) (above : List Text)
    (head : Text) :
    placeBehind start here line (row :: above) head =
      placeBehind next next (line + 1) above head := by
  simp [placeBehind, Nat.add_assoc, Nat.add_comm 1]

theorem placeBehind_zero (above : List Text) (head : Text) :
    placeBehind 0 0 0 above head = ⟨.ofNat above.length, .ofNat (byteSize head)⟩ := by
  simp [placeBehind]

/-- A character that ends no row is found in the row in which it stands. -/
theorem locateIn_spansFrom {before head : Text} {above : List Text} {c : Char} (hc : ¬EndsRow c)
    (hhead : rows before = above ++ [head]) (rest : Text) {start here : Nat} (hstart : start ≤ here)
    (line : Nat) :
    locateIn (here + byteSize before) line (spansFrom start here (before ++ c :: rest)) =
      some (placeBehind start here line above head) := by
  have hnotFeed : ∀ more, c :: rest ≠ '\n' :: more := by
    intro more heq
    obtain ⟨rfl, -⟩ := List.cons.inj heq
    exact hc (Or.inr rfl)
  fun_induction rows before generalizing above head start here line with
  | case1 =>
      cases above with
      | cons row others => simp at hhead
      | nil =>
          cases hhead
          obtain ⟨stop, others, hspans, hstop⟩ :=
            exists_spansFrom_eq_cons start (here + c.utf8Size) rest
          have hsize := c.utf8Size_pos
          rw [List.nil_append, spansFrom_cons hc, hspans, locateIn, if_pos]
          · simp [placeBehind]
          · simp only [byteSize_nil]
            omega
  | case2 more ih =>
      obtain ⟨others, rfl, hmore⟩ := exists_above_of_cons hhead
      have hoffset : here + byteSize ('\r' :: '\n' :: more) = here + 2 + byteSize more := by
        simp only [byteSize_cons, utf8Size_return, utf8Size_feed]
        omega
      rw [List.cons_append, List.cons_append, spansFrom, hoffset,
        locateIn_skip (by dsimp only; omega), ih hmore (Nat.le_refl (here + 2)), placeBehind_cons]
  | case3 more hmoreFeed ih =>
      obtain ⟨others, rfl, hmore⟩ := exists_above_of_cons hhead
      have hoffset : here + byteSize ('\r' :: more) = here + 1 + byteSize more := by
        simp only [byteSize_cons, utf8Size_return]
        omega
      rw [List.cons_append, spansFrom_return (append_ne_cons hmoreFeed hnotFeed), hoffset,
        locateIn_skip (by dsimp only; omega), ih hmore (Nat.le_refl (here + 1)), placeBehind_cons]
  | case4 more ih =>
      obtain ⟨others, rfl, hmore⟩ := exists_above_of_cons hhead
      have hoffset : here + byteSize ('\n' :: more) = here + 1 + byteSize more := by
        simp only [byteSize_cons, utf8Size_feed]
        omega
      rw [List.cons_append, spansFrom, hoffset, locateIn_skip (by dsimp only; omega),
        ih hmore (Nat.le_refl (here + 1)), placeBehind_cons]
  | case5 d more _ hreturn hfeed ih =>
      have hoffset : here + byteSize (d :: more) = here + d.utf8Size + byteSize more := by
        rw [byteSize_cons, Nat.add_assoc]
      rw [List.cons_append, spansFrom_cons (not_or.mpr ⟨hreturn, hfeed⟩), hoffset]
      rcases exists_above_of_consFirst hhead with ⟨rfl, row, rfl, hmore⟩ | ⟨row, others, rfl, hmore⟩
      · have hfound : locateIn _ line (spansFrom start (here + d.utf8Size) (more ++ c :: rest)) =
            some (placeBehind start (here + d.utf8Size) line [] row) := ih hmore (by omega) line
        rw [hfound]
        have hcolumn : byteSize row + (here + d.utf8Size - start) =
            byteSize (d :: row) + (here - start) := by
          rw [byteSize_cons]
          omega
        simp only [placeBehind, if_true, hcolumn]
      · rw [ih hmore (by omega), placeBehind_cons start here line 0,
          placeBehind_cons start (here + d.utf8Size) line 0]

/-- What stands behind `before` in a source is at a place: above it are as many rows as the place
says, and in front of it in its row are as many bytes. -/
structure StandsAt (source : Text) (place : Location) (before after : Text) : Prop where
  source_eq : source = before ++ after
  rows_eq : ∃ above head tail below, rows before = above ++ [head] ∧ rows after = tail :: below ∧
    rows source = above ++ (head ++ tail) :: below ∧
    above.length = place.line.toNat ∧ byteSize head = place.column.toNat

/-- Whatever ends no row is located, if positions reach it, at the place at which it stands. -/
theorem exists_standsAt {before rest : Text} {c : Char} (hc : ¬EndsRow c)
    (hsize : byteSize (before ++ c :: rest) ≤ maxOffset) :
    ∃ place, (before ++ c :: rest).locate (byteSize before) = some place ∧
      StandsAt (before ++ c :: rest) place before (c :: rest) := by
  obtain ⟨above, head, hhead⟩ : ∃ above head, rows before = above ++ [head] := by
    obtain ⟨first, others, hrows⟩ := exists_rows_eq_cons before
    exact ⟨_, _, (List.dropLast_concat_getLast (by simp [hrows] : rows before ≠ [])).symm⟩
  obtain ⟨tail, below, htail⟩ := exists_rows_eq_cons (c :: rest)
  have hlocate := locateIn_spansFrom hc hhead rest (Nat.le_refl 0) 0
  rw [Nat.zero_add] at hlocate
  refine ⟨_, by rw [locate, lineSpans_eq hsize, hlocate], rfl, above, head, tail, below, hhead,
    htail, ?_, ?_⟩
  · refine rows_append (fun more heq => ?_) hhead htail
    obtain ⟨rfl, -⟩ := List.cons.inj heq
    exact hc (Or.inr rfl)
  · have hbytes := length_add_byteSize_le hhead
    simp only [byteSize_append] at hsize
    have hmax : maxOffset < UInt32.size := by decide
    rw [placeBehind_zero]
    exact ⟨(UInt32.toNat_ofNat_of_lt' (by omega)).symm, (UInt32.toNat_ofNat_of_lt' (by omega)).symm⟩

/-- In the line that a place says, the text begins at its column. -/
def ReadsAt (source : Text) (place : Location) (text : Text) : Prop :=
  ∃ head tail, (rows source)[place.line.toNat]? = some (head ++ (text ++ tail)) ∧
    byteSize head = place.column.toNat

/-- A text that no row ends in is read at the place at which it stands. -/
theorem StandsAt.readsAt {source before text after : Text} {place : Location}
    (h : StandsAt source place before (text ++ after)) (htext : ∀ c ∈ text, ¬EndsRow c) :
    ReadsAt source place text := by
  obtain ⟨above, head, tail, below, -, htail, hsource, hline, hcolumn⟩ := h.rows_eq
  obtain ⟨first, others, hafter⟩ := exists_rows_eq_cons after
  rw [rows_append_of_no_end htext hafter] at htail
  obtain ⟨rfl, rfl⟩ := List.cons.inj htail
  exact ⟨head, first, by rw [hsource, ← hline]; simp, hcolumn⟩

end ComponentLoader.Text
