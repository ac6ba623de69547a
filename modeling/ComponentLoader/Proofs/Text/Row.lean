import ComponentLoader.Proofs.Text.Line
import ComponentLoader.Proofs.Text.Offset
set_option autoImplicit false

/-!
# Rows and lines (SPEC §7.2)

Positions count a carriage return as a line end even where no line feed follows it, and `lines` does
not.  So the row with a number and the line with that number may differ: the line is as many lines
below the row as lone carriage returns stand above it (`getElem?_lines_append`).  Where none stands
above, the line is the row unless it goes on behind a lone carriage return at the row's end
(`getElem?_lines_zero_iff`).
-/

namespace ComponentLoader.Text

/-! ## Rows in a text -/

/-- A text is cut at one of its rows: so many rows stand in front of it, each with its end, and what
stands behind it ends it. -/
structure IsRow (text : Text) (number : Nat) (before row after : Text) : Prop where
  text_eq : text = before ++ (row ++ after)
  rows_eq : ∃ above, rows before = above ++ [[]] ∧ above.length = number
  no_end : ∀ c ∈ row, ¬EndsRow c
  ended : ∀ c ∈ after.head?, EndsRow c

namespace IsRow

variable {text before row after : Text} {number : Nat}

theorem empty (h : ∀ c ∈ text.head?, EndsRow c) : IsRow text 0 [] [] text :=
  ⟨rfl, ⟨[], rfl, rfl⟩, (fun _ hc => nomatch hc), h⟩

/-- Nothing stands in front of the first row. -/
theorem before_eq_nil (h : IsRow text 0 before row after) : before = [] := by
  obtain ⟨above, hrows, hlength⟩ := h.rows_eq
  obtain rfl := List.eq_nil_of_length_eq_zero hlength
  revert hrows
  fun_cases rows before with
  | case1 => exact fun _ => rfl
  | case2 rest | case3 rest | case4 rest | case5 c rest =>
      intro hrows
      obtain ⟨first, others, hrest⟩ := exists_rows_eq_cons rest
      rw [hrest] at hrows
      cases hrows

/-- A row end in front of a text is a row more. -/
theorem below {ending : Text} (hrows : rows (ending ++ before) = [] :: rows before)
    (h : IsRow text number before row after) :
    IsRow (ending ++ text) (number + 1) (ending ++ before) row after := by
  obtain ⟨above, habove, hlength⟩ := h.rows_eq
  refine ⟨by rw [h.text_eq, List.append_assoc], ⟨[] :: above, ?_, ?_⟩, h.no_end, h.ended⟩
  · rw [hrows, habove]
    rfl
  · rw [List.length_cons, hlength]

/-- A character that ends no row is in the first one. -/
theorem cons {c : Char} (hc : ¬EndsRow c) (h : IsRow text number before row after) :
    (number = 0 ∧ before = [] ∧ IsRow (c :: text) 0 [] (c :: row) after) ∨
      number ≠ 0 ∧ IsRow (c :: text) number (c :: before) row after := by
  cases number with
  | zero =>
      obtain rfl := h.before_eq_nil
      refine Or.inl ⟨rfl, rfl, by rw [h.text_eq]; rfl, ⟨[], rfl, rfl⟩, ?_, h.ended⟩
      exact List.forall_mem_cons.mpr ⟨hc, h.no_end⟩
  | succ n =>
      obtain ⟨above, habove, hlength⟩ := h.rows_eq
      obtain ⟨first, others, rfl⟩ := List.exists_cons_of_length_eq_add_one hlength
      refine Or.inr ⟨Nat.succ_ne_zero n, by rw [h.text_eq]; rfl,
        ⟨(c :: first) :: others, ?_, hlength⟩, h.no_end, h.ended⟩
      rw [rows_cons hc, habove]
      rfl

end IsRow

/-! ## Spans of rows -/

/-- A span is that of the row with a number, in a text that begins at byte `here` of a line that
began at byte `start`. -/
def SpansRow (start here : Nat) (text : Text) (number : Nat) (span : LineSpan) : Prop :=
  ∃ before row after, IsRow text number before row after ∧
    span.start = (if number = 0 then start else here + byteSize before) ∧
    span.stop = here + byteSize (before ++ row)

/-- The spans of a text that begins with a line end are an empty one and those of what follows. -/
theorem spansRow_behind {start here : Nat} {rest : Text} {spans : List LineSpan} (ending : Text)
    (size : Nat) (hsize : byteSize ending = size) (hends : ∀ c ∈ (ending ++ rest).head?, EndsRow c)
    (hrows : ∀ before, before <+: rest → rows (ending ++ before) = [] :: rows before)
    (hspans : ∀ number span, spans[number]? = some span →
      SpansRow (here + size) (here + size) rest number span)
    {number : Nat} {span : LineSpan} (h : (⟨start, here⟩ :: spans)[number]? = some span) :
    SpansRow start here (ending ++ rest) number span := by
  cases number with
  | zero =>
      cases h
      exact ⟨[], [], _, .empty hends, rfl, rfl⟩
  | succ n =>
      obtain ⟨before, row, after, hrow, hstart, hstop⟩ := hspans n span h
      have hbefore : before <+: rest := ⟨row ++ after, hrow.text_eq.symm⟩
      refine ⟨ending ++ before, row, after, hrow.below (hrows before hbefore), ?_, ?_⟩
      · rw [if_neg (Nat.succ_ne_zero n), byteSize_append, ← Nat.add_assoc, hsize, hstart]
        split
        · rename_i hzero
          subst hzero
          rw [hrow.before_eq_nil]
          rfl
        · rfl
      · rw [hstop, List.append_assoc, byteSize_append ending, hsize, Nat.add_assoc]

theorem spansRow_of_getElem?_spansFrom {start here : Nat} {text : Text} {number : Nat}
    {span : LineSpan} (h : (spansFrom start here text)[number]? = some span) :
    SpansRow start here text number span := by
  fun_induction spansFrom start here text generalizing number span with
  | case1 start here =>
      cases number with
      | zero =>
          cases h
          exact ⟨[], [], [], .empty (by simp), rfl, rfl⟩
      | succ n => cases h
  | case2 start here rest ih =>
      exact spansRow_behind ['\r', '\n'] 2 rfl (by simp [EndsRow]) (fun _ _ => rfl)
        (fun _ _ hspan => ih hspan) h
  | case3 start here rest hne ih =>
      refine spansRow_behind ['\r'] 1 rfl (by simp [EndsRow]) ?_ (fun _ _ hspan => ih hspan) h
      rintro before ⟨more, rfl⟩
      exact rows_return fun others heq => hne (others ++ more) (congrArg (· ++ more) heq)
  | case4 start here rest ih =>
      exact spansRow_behind ['\n'] 1 rfl (by simp [EndsRow]) (fun _ _ => rfl)
        (fun _ _ hspan => ih hspan) h
  | case5 start here c rest _ hreturn hfeed ih =>
      obtain ⟨before, row, after, hrow, hstart, hstop⟩ := ih h
      rcases hrow.cons (not_or.mpr ⟨hreturn, hfeed⟩) with ⟨rfl, rfl, hcons⟩ | ⟨hne, hcons⟩
      · refine ⟨[], c :: row, after, hcons, hstart, ?_⟩
        rw [hstop, List.nil_append, List.nil_append, byteSize_cons, Nat.add_assoc]
      · refine ⟨c :: before, row, after, hcons, ?_, ?_⟩
        · rw [hstart, if_neg hne, if_neg hne, byteSize_cons, Nat.add_assoc]
        · rw [hstop, List.cons_append, byteSize_cons, Nat.add_assoc]

/-- What is located is in the span whose number it is given. -/
theorem exists_span_of_locateIn {offset line : Nat} {spans : List LineSpan} {place : Location}
    (h : locateIn offset line spans = some place) :
    ∃ number span, spans[number]? = some span ∧ span.start ≤ offset ∧ offset < span.stop ∧
      place.line = .ofNat (line + number) := by
  induction spans generalizing line with
  | nil => cases h
  | cons span rest ih =>
      rw [locateIn] at h
      split at h
      · rename_i hin
        cases h
        exact ⟨0, span, rfl, hin.1, hin.2, rfl⟩
      · obtain ⟨number, found, hfound, hstart, hstop, hline⟩ := ih h
        refine ⟨number + 1, found, hfound, hstart, hstop, ?_⟩
        rw [hline, Nat.add_assoc, Nat.add_comm 1]

/-- A text is cut at one of its lines as positions count them: the span with that
number is the line's. -/
structure IsLineAt (text : Text) (number : Nat) (before line after : Text) : Prop where
  text_eq : text = before ++ (line ++ after)
  span_eq : (lineSpans text)[number]? = some ⟨byteSize before, byteSize (before ++ line)⟩

/-- What is located is in a line of the text, which is a row of it. -/
theorem exists_isLineAt_of_locate {text : Text} (hsize : byteSize text < UInt32.size) {offset : Nat}
    {place : Location} (h : text.locate offset = some place) :
    ∃ before line after, IsLineAt text place.line.toNat before line after ∧
      byteSize before ≤ offset ∧ offset < byteSize (before ++ line) ∧
      IsRow text place.line.toNat before line after := by
  obtain ⟨number, ⟨start, stop⟩, hspan, hstart, hstop, hline⟩ := exists_span_of_locateIn h
  have hspan' := hspan
  rw [lineSpans_eq (Nat.le_pred_of_lt hsize)] at hspan'
  obtain ⟨before, row, after, hrow, hstartEq, hstopEq⟩ := spansRow_of_getElem?_spansFrom hspan'
  have hstart' : start = byteSize before := by
    rw [show start = _ from hstartEq]
    split
    · rename_i hzero
      subst hzero
      rw [hrow.before_eq_nil]
      rfl
    · exact Nat.zero_add _
  obtain rfl : stop = byteSize (before ++ row) := hstopEq.trans (Nat.zero_add _)
  subst hstart'
  have hnumber : place.line.toNat = number := by
    obtain ⟨above, habove, hlength⟩ := hrow.rows_eq
    have hbytes := length_add_byteSize_le habove
    have hwhole := congrArg byteSize hrow.text_eq
    rw [byteSize_append] at hwhole
    rw [hline, Nat.zero_add]
    exact UInt32.toNat_ofNat_of_lt' (by omega)
  rw [hnumber]
  exact ⟨before, row, after, ⟨hrow.text_eq, hspan⟩, hstart, hstop, hrow⟩

/-! ## Lone carriage returns -/

/-- The number of carriage returns that no line feed follows. -/
def loneReturns : Text → Nat
  | [] => 0
  | c :: rest => (if c = '\r' ∧ rest.head? ≠ some '\n' then 1 else 0) + loneReturns rest

/-- A text begins with a carriage return that no line feed follows. -/
def BeginsLone (text : Text) : Prop :=
  ∃ rest, text = '\r' :: rest ∧ rest.head? ≠ some '\n'

theorem loneReturns_cons_of_ne {c : Char} (h : c ≠ '\r') (rest : Text) :
    loneReturns (c :: rest) = loneReturns rest := by
  rw [loneReturns, if_neg fun hlone => h hlone.1, Nat.zero_add]

theorem loneReturns_return_feed (rest : Text) :
    loneReturns ('\r' :: '\n' :: rest) = loneReturns rest := by
  rw [loneReturns, if_neg fun hlone => hlone.2 rfl, Nat.zero_add,
    loneReturns_cons_of_ne (by decide)]

theorem loneReturns_return {rest : Text} (h : ∀ more, rest ≠ '\n' :: more) :
    loneReturns ('\r' :: rest) = loneReturns rest + 1 := by
  have hhead : rest.head? ≠ some '\n' := by
    intro hhead
    obtain ⟨more, hmore⟩ := List.head?_eq_some_iff.mp hhead
    exact h more hmore
  rw [loneReturns, if_pos ⟨rfl, hhead⟩, Nat.add_comm]

theorem loneReturns_append {front rest : Text} (h : rest.head? ≠ some '\n') :
    loneReturns (front ++ rest) = loneReturns front + loneReturns rest := by
  induction front with
  | nil => exact (Nat.zero_add _).symm
  | cons c others ih =>
      have hhead : (others ++ rest).head? ≠ some '\n' ↔ others.head? ≠ some '\n' := by
        cases others with
        | nil => exact iff_of_true h (fun heq => nomatch heq)
        | cons d more => exact Iff.rfl
      rw [List.cons_append, loneReturns, loneReturns, ih, Nat.add_assoc]
      simp only [hhead]

theorem BeginsLone.loneReturns_pos {text : Text} (h : BeginsLone text) : 0 < loneReturns text := by
  obtain ⟨rest, rfl, hhead⟩ := h
  rw [loneReturns, if_pos ⟨rfl, hhead⟩]
  omega

/-- In a text without lone carriage returns none stands above a row and none ends it. -/
theorem IsRow.of_loneReturns_eq_zero {text before row after : Text} {number : Nat}
    (h : IsRow text number before row after) (hne : row ≠ []) (hlone : loneReturns text = 0) :
    loneReturns before = 0 ∧ ¬BeginsLone after := by
  obtain ⟨c, more, rfl⟩ := List.exists_cons_of_ne_nil hne
  have hfeed : (c :: more ++ after).head? ≠ some '\n' := by
    rintro ⟨⟩
    exact h.no_end '\n' List.mem_cons_self (Or.inr rfl)
  rw [h.text_eq, loneReturns_append hfeed] at hlone
  refine ⟨by omega, fun hafter => ?_⟩
  have hreturn : after.head? ≠ some '\n' := by
    obtain ⟨rest, rfl, -⟩ := hafter
    exact fun heq => absurd (Option.some.inj heq) (by decide)
  rw [loneReturns_append hreturn] at hlone
  have hpos := hafter.loneReturns_pos
  omega

/-! ## Lines behind rows -/

theorem lines_feed (text : Text) : lines ('\n' :: text) = [] :: lines text :=
  lines_append_cons List.not_mem_nil (by decide) text

theorem dropLineEnd_return_feed (line : Text) :
    dropLineEnd ((line ++ ['\r']) ++ ['\n']) = line := by
  have hfeed : dropTail? "\n" ((line ++ ['\r']) ++ ['\n']) = some (line ++ ['\r']) :=
    dropTail?_eq_some_iff.mpr rfl
  have hreturn : dropTail? "\r" (line ++ ['\r']) = some line := dropTail?_eq_some_iff.mpr rfl
  unfold dropLineEnd
  rw [hfeed]
  simp only [hreturn, Option.getD_some]

theorem lines_append_return_feed {line : Text} (h : '\n' ∉ line) (rest : Text) :
    lines (line ++ '\r' :: '\n' :: rest) = line :: lines rest := by
  have hpiece : '\n' ∉ line ++ ['\r'] := by simp [h]
  have htext : line ++ '\r' :: '\n' :: rest = (line ++ ['\r']) ++ '\n' :: rest := by simp
  rw [htext, lines, splitAfterNewline_append_cons hpiece, List.map_cons, dropLineEnd_return_feed,
    ← lines]

/-- All lines but the first one are those behind a character that is no line feed. -/
theorem getElem?_succ_lines_cons {c : Char} (hc : c ≠ '\n') (text : Text) (n : Nat) :
    (lines (c :: text))[n + 1]? = (lines text)[n + 1]? := by
  cases text with
  | nil => rfl
  | cons d rest =>
      unfold lines
      rw [splitAfterNewline, if_neg hc]
      cases splitAfterNewline (d :: rest) <;> rfl

/-- Each lone carriage return in the rows above moves what is counted as a line one line on. -/
theorem getElem?_lines_append {before : Text} {above : List Text} (h : rows before = above ++ [[]])
    (after : Text) (n : Nat) :
    (lines (before ++ after))[above.length + n]? = (lines after)[loneReturns before + n]? := by
  fun_induction rows before generalizing above n with
  | case1 =>
      cases above with
      | nil => rfl
      | cons row others => simp at h
  | case2 rest ih =>
      obtain ⟨others, rfl, hrest⟩ := exists_above_of_cons h
      have hlines := lines_append_return_feed List.not_mem_nil (rest ++ after)
      rw [List.nil_append] at hlines
      rw [List.cons_append, List.cons_append, hlines, loneReturns_return_feed, ← ih hrest,
        List.length_cons, Nat.add_right_comm, List.getElem?_cons_succ]
  | case3 rest hfeed ih =>
      obtain ⟨others, rfl, hrest⟩ := exists_above_of_cons h
      rw [List.cons_append, List.length_cons, Nat.add_right_comm,
        getElem?_succ_lines_cons (by decide), loneReturns_return hfeed, Nat.add_assoc, ih hrest,
        Nat.add_assoc, Nat.add_comm 1]
  | case4 rest ih =>
      obtain ⟨others, rfl, hrest⟩ := exists_above_of_cons h
      rw [List.cons_append, lines_feed, loneReturns_cons_of_ne (by decide), ← ih hrest,
        List.length_cons, Nat.add_right_comm, List.getElem?_cons_succ]
  | case5 c rest _ hreturn hfeed ih =>
      rcases exists_above_of_consFirst h with ⟨-, tail, htail, -⟩ | ⟨row, others, rfl, hrest⟩
      · cases htail
      · rw [List.cons_append, List.length_cons, Nat.add_right_comm,
          getElem?_succ_lines_cons hfeed, Nat.add_right_comm, loneReturns_cons_of_ne hreturn]
        exact ih hrest n

/-- A piece that a line feed ends is a line, or a line with a carriage return at its end. -/
theorem eq_or_eq_of_dropLineEnd {piece line : Text} (h : dropLineEnd (piece ++ ['\n']) = line) :
    piece = line ∨ piece = line ++ ['\r'] := by
  have hfeed : dropTail? "\n" (piece ++ ['\n']) = some piece := dropTail?_eq_some_iff.mpr rfl
  unfold dropLineEnd at h
  rw [hfeed] at h
  simp only at h
  cases hreturn : dropTail? "\r" piece with
  | none =>
      rw [hreturn] at h
      exact Or.inl h
  | some front =>
      rw [hreturn] at h
      obtain rfl : front = line := h
      exact Or.inr (dropTail?_eq_some_iff.mp hreturn)

theorem dropLineEnd_of_not_mem {piece : Text} (h : '\n' ∉ piece) : dropLineEnd piece = piece := by
  unfold dropLineEnd
  cases hfeed : dropTail? "\n" piece with
  | none => rfl
  | some line =>
      rw [dropTail?_eq_some_iff.mp hfeed] at h
      exact absurd (List.mem_append_right line List.mem_cons_self) h

/-- A line goes on behind a lone carriage return. -/
theorem getElem?_lines_zero_ne {row after : Text} (hrow : '\n' ∉ row) (hafter : BeginsLone after) :
    (lines (row ++ after))[0]? ≠ some row := by
  obtain ⟨rest, rfl, hhead⟩ := hafter
  intro heq
  by_cases hmem : '\n' ∈ rest
  · obtain ⟨front, more, rfl, hfront⟩ := List.eq_append_cons_of_mem hmem
    have hpiece : '\n' ∉ row ++ '\r' :: front := by simp [hrow, hfront]
    have htext : row ++ '\r' :: (front ++ '\n' :: more) =
        (row ++ '\r' :: front) ++ '\n' :: more := by
      simp
    rw [htext, lines, splitAfterNewline_append_cons hpiece] at heq
    rcases eq_or_eq_of_dropLineEnd (Option.some.inj heq) with hline | hline
    · simp at hline
    · -- nothing would stand between the carriage return and the line feed
      obtain rfl : front = [] := by simpa using hline
      exact hhead rfl
  · have hpiece : '\n' ∉ row ++ '\r' :: rest := by simp [hrow, hmem]
    rw [lines, splitAfterNewline_of_not_mem hpiece (by simp)] at heq
    have hline := (dropLineEnd_of_not_mem hpiece).symm.trans (Option.some.inj heq)
    simp at hline

/-- A row is the first line from its front on exactly if no lone carriage return ends it. -/
theorem getElem?_lines_zero_iff {row after : Text} (hne : row ≠ []) (hrow : ∀ c ∈ row, ¬EndsRow c)
    (hafter : ∀ c ∈ after.head?, EndsRow c) :
    (lines (row ++ after))[0]? = some row ↔ ¬BeginsLone after := by
  have hfeed : '\n' ∉ row := fun hmem => hrow _ hmem (Or.inr rfl)
  have hreturn : '\r' ∉ row := fun hmem => hrow _ hmem (Or.inl rfl)
  have hlast : row.getLast? ≠ some '\r' := fun h => hreturn (List.mem_of_getLast? h)
  refine ⟨fun heq hlone => getElem?_lines_zero_ne hfeed hlone heq, fun hnot => ?_⟩
  cases after with
  | nil =>
      rw [List.append_nil, lines, splitAfterNewline_of_not_mem hfeed hne]
      exact congrArg some (dropLineEnd_of_not_mem hfeed)
  | cons c rest =>
      rcases hafter c rfl with rfl | rfl
      · obtain ⟨more, rfl⟩ : ∃ more, rest = '\n' :: more := by
          by_contra hnone
          exact hnot ⟨rest, rfl, fun hhead => hnone (List.head?_eq_some_iff.mp hhead)⟩
        rw [lines_append_return_feed hfeed]
        rfl
      · rw [lines_append_cons hfeed hlast]
        rfl

end ComponentLoader.Text
