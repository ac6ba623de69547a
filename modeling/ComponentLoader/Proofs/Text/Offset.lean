import ComponentLoader.Proofs.Text.Position
set_option autoImplicit false

/-!
# Offsets and their places (SPEC §4.4)

An offset counts bytes, and so does a column, while lines are cut at characters.  Here the place
of an offset is read off the bytes of the text alone: `endsBefore` has the line ends that are
wholly in front of it, and the last of them is where its line begins (`startBefore`).  A byte is
located exactly if it is none of a line end (`locate_eq_some_iff`), and a byte inside a character
as well as the first one.

Where every offset of a text is a word, there is one more word than its last byte needs, so that a
located line and column can be counted from one as well (`locate_exact`).
-/

namespace ComponentLoader.Text

/-! ## Bytes of characters -/

theorem length_utf8 (text : Text) : (utf8 text).length = byteSize text := by
  induction text with
  | nil => rfl
  | cons c rest ih =>
      rw [utf8, List.flatMap_cons, List.length_append, String.length_utf8EncodeChar, byteSize_cons]
      exact congrArg _ ih

/-- The byte of a character below 128 is in the form of no other character. -/
theorem eq_of_mem_utf8EncodeChar {c d : Char} (hd : d.toNat < 128)
    (h : UInt8.ofNat d.toNat ∈ String.utf8EncodeChar c) : c = d := by
  have hbyte : (UInt8.ofNat d.toNat).toNat = d.toNat :=
    UInt8.toNat_ofNat_of_lt' (by rw [UInt8.size]; omega)
  -- all bytes of a longer form are 128 at least
  have hhigh (n : Nat) (hn : 128 ≤ n) (hsize : n < 256) : UInt8.ofNat d.toNat ≠ UInt8.ofNat n := by
    intro heq
    rw [heq, UInt8.toNat_ofNat_of_lt' hsize] at hbyte
    omega
  unfold String.utf8EncodeChar at h
  simp only at h
  split at h
  · rename_i hsmall
    have hcode : d.toNat = c.toNat := by
      rw [← hbyte, List.mem_singleton.mp h]
      exact UInt8.toNat_ofNat_of_lt' (Nat.lt_of_le_of_lt hsmall (by decide))
    exact Char.toNat_inj.mp hcode.symm
  · exfalso
    split at h
    · simp only [List.mem_cons, List.not_mem_nil, or_false] at h
      rcases h with h | h <;> exact hhigh _ (by omega) (by omega) h
    · split at h
      · simp only [List.mem_cons, List.not_mem_nil, or_false] at h
        rcases h with h | h | h <;> exact hhigh _ (by omega) (by omega) h
      · simp only [List.mem_cons, List.not_mem_nil, or_false] at h
        rcases h with h | h | h | h <;> exact hhigh _ (by omega) (by omega) h

/-- A form that begins with a line feed is that of a text that does. -/
theorem exists_eq_cons_of_head_utf8 {text : Text}
    (h : (utf8 text)[0]? = some (UInt8.ofNat '\n'.toNat)) : ∃ rest, text = '\n' :: rest := by
  cases text with
  | nil => cases h
  | cons c rest =>
      have hpos : 0 < (String.utf8EncodeChar c).length := by
        rw [String.length_utf8EncodeChar]
        exact c.utf8Size_pos
      rw [utf8, List.flatMap_cons, List.getElem?_append_left hpos] at h
      obtain rfl := eq_of_mem_utf8EncodeChar (by decide) (List.mem_of_getElem? h)
      exact ⟨rest, rfl⟩

/-! ## Line ends in bytes -/

/-- The byte of a carriage return. -/
def returnByte : UInt8 :=
  13

/-- The byte of a line feed. -/
def feedByte : UInt8 :=
  10

/-- The byte at `i` is the last one of a line end: a line feed, or a carriage return that
no line feed follows. -/
def EndsAt (bytes : List UInt8) (i : Nat) : Prop :=
  bytes[i]? = some feedByte ∨ bytes[i]? = some returnByte ∧ bytes[i + 1]? ≠ some feedByte

instance (bytes : List UInt8) (i : Nat) : Decidable (EndsAt bytes i) :=
  inferInstanceAs (Decidable (_ ∨ _))

/-- Where the line ends that are wholly in front of an offset have their last bytes, in order. -/
def endsBefore (bytes : List UInt8) (offset : Nat) : List Nat :=
  (List.range offset).filter fun i => EndsAt bytes i

/-- The offset behind the last line end that is wholly in front of an offset, or
the front of the text. -/
def startBefore (bytes : List UInt8) (offset : Nat) : Nat :=
  (endsBefore bytes offset).getLast?.elim 0 (· + 1)

/-- There is a byte at an offset, and it is none of a line end. -/
def InLine (bytes : List UInt8) (offset : Nat) : Prop :=
  ∃ byte, bytes[offset]? = some byte ∧ byte ≠ returnByte ∧ byte ≠ feedByte

theorem endsBefore_succ_of_endsAt {bytes : List UInt8} {i : Nat} (h : EndsAt bytes i) :
    endsBefore bytes (i + 1) = endsBefore bytes i ++ [i] := by
  simp [endsBefore, List.range_succ, h]

theorem endsBefore_succ_of_not {bytes : List UInt8} {i : Nat} (h : ¬EndsAt bytes i) :
    endsBefore bytes (i + 1) = endsBefore bytes i := by
  simp [endsBefore, List.range_succ, h]

theorem endsBefore_add {bytes : List UInt8} {i n : Nat} (h : ∀ j < n, ¬EndsAt bytes (i + j)) :
    endsBefore bytes (i + n) = endsBefore bytes i := by
  induction n with
  | zero => rfl
  | succ n ih =>
      rw [← Nat.add_assoc, endsBefore_succ_of_not (h n (Nat.lt_succ_self n))]
      exact ih fun j hj => h j (Nat.lt_succ_of_lt hj)

theorem length_endsBefore_le (bytes : List UInt8) (offset : Nat) :
    (endsBefore bytes offset).length ≤ offset := by
  have hfilter := List.length_filter_le (fun i => decide (EndsAt bytes i)) (List.range offset)
  rw [List.length_range] at hfilter
  exact hfilter

theorem InLine.not_endsAt {bytes : List UInt8} {i : Nat} (h : InLine bytes i) :
    ¬EndsAt bytes i := by
  obtain ⟨byte, hbyte, hreturn, hfeed⟩ := h
  unfold EndsAt
  rw [hbyte]
  simp [hreturn, hfeed]

theorem InLine.lt_length {bytes : List UInt8} {offset : Nat} (h : InLine bytes offset) :
    offset < bytes.length := by
  obtain ⟨byte, hbyte, -⟩ := h
  exact (List.getElem?_eq_some_iff.mp hbyte).1

/-! ## Scanning -/

/-- A scan for lines has come to `here`, where `rest` follows: the line that it is in began at
`start`, and so many line ends are over. -/
structure ScannedTo (bytes : List UInt8) (start here line : Nat) (rest : Text) : Prop where
  drop_eq : bytes.drop here = utf8 rest
  length_eq : (endsBefore bytes here).length = line
  start_eq : startBefore bytes here = start

namespace ScannedTo

variable {bytes : List UInt8} {start here line : Nat} {rest : Text}

theorem zero (text : Text) : ScannedTo (utf8 text) 0 0 0 text :=
  ⟨rfl, rfl, rfl⟩

theorem getElem?_add (h : ScannedTo bytes start here line rest) (i : Nat) :
    bytes[here + i]? = (utf8 rest)[i]? := by
  rw [← h.drop_eq, List.getElem?_drop]

theorem drop_add {c : Char} (h : ScannedTo bytes start here line (c :: rest)) :
    bytes.drop (here + c.utf8Size) = utf8 rest := by
  rw [← List.drop_drop, h.drop_eq, utf8, List.flatMap_cons, ← String.length_utf8EncodeChar,
    List.drop_left]
  rfl

/-- The bytes of a character that ends no line are in a line. -/
theorem inLine_of_lt {c : Char} (h : ScannedTo bytes start here line (c :: rest)) (hc : ¬EndsRow c)
    {i : Nat} (hi : i < c.utf8Size) : InLine bytes (here + i) := by
  rw [← String.length_utf8EncodeChar] at hi
  have hmem := List.getElem_mem hi
  refine ⟨(String.utf8EncodeChar c)[i], ?_, ?_, ?_⟩
  · rw [h.getElem?_add, utf8, List.flatMap_cons, List.getElem?_append_left hi]
    exact List.getElem?_eq_getElem hi
  · intro heq
    rw [heq] at hmem
    exact hc (Or.inl (eq_of_mem_utf8EncodeChar (d := '\r') (by decide) hmem))
  · intro heq
    rw [heq] at hmem
    exact hc (Or.inr (eq_of_mem_utf8EncodeChar (d := '\n') (by decide) hmem))

/-- The byte of a character that ends a line is in none. -/
theorem not_inLine {c : Char} (h : ScannedTo bytes start here line (c :: rest)) (hc : EndsRow c) :
    ¬InLine bytes here := by
  rintro ⟨byte, hbyte, hreturn, hfeed⟩
  have hhere : bytes[here]? = (utf8 (c :: rest))[0]? := h.getElem?_add 0
  rw [hhere] at hbyte
  rcases hc with rfl | rfl
  · exact hreturn (Option.some.inj hbyte).symm
  · exact hfeed (Option.some.inj hbyte).symm

theorem endsAt_feed (h : ScannedTo bytes start here line ('\n' :: rest)) : EndsAt bytes here :=
  Or.inl (h.getElem?_add 0)

/-- A carriage return is a line end by itself unless a line feed follows. -/
theorem endsAt_return_iff (h : ScannedTo bytes start here line ('\r' :: rest)) :
    EndsAt bytes here ↔ ∀ more, rest ≠ '\n' :: more := by
  have hhere : bytes[here]? = some returnByte := h.getElem?_add 0
  have hnext : bytes[here + 1]? = (utf8 rest)[0]? := h.getElem?_add 1
  unfold EndsAt
  rw [hhere, hnext]
  constructor
  · rintro (heq | ⟨-, hne⟩) more rfl
    · exact absurd heq (by decide)
    · exact hne rfl
  · intro hne
    refine Or.inr ⟨rfl, fun heq => ?_⟩
    obtain ⟨more, hmore⟩ := exists_eq_cons_of_head_utf8 heq
    exact hne more hmore

/-- The scan stays in its line past a character with which no line end is over. -/
theorem stay {c : Char} (h : ScannedTo bytes start here line (c :: rest))
    (hnot : ∀ i < c.utf8Size, ¬EndsAt bytes (here + i)) :
    ScannedTo bytes start (here + c.utf8Size) line rest := by
  have hends := endsBefore_add hnot
  refine ⟨h.drop_add, by rw [hends, h.length_eq], ?_⟩
  unfold startBefore
  rw [hends]
  exact h.start_eq

/-- The scan comes to the next line past a byte with which a line end is over. -/
theorem next {c : Char} (h : ScannedTo bytes start here line (c :: rest)) (hsize : c.utf8Size = 1)
    (hends : EndsAt bytes here) : ScannedTo bytes (here + 1) (here + 1) (line + 1) rest := by
  have happend := endsBefore_succ_of_endsAt hends
  refine ⟨hsize ▸ h.drop_add, ?_, ?_⟩
  · rw [happend, List.length_append, h.length_eq]
    rfl
  · unfold startBefore
    rw [happend, List.getLast?_concat]
    rfl

end ScannedTo

/-! ## Places -/

/-- The place of an offset: the line ends in front of it, and the bytes since the last of them. -/
def placeOf (bytes : List UInt8) (offset : Nat) : Location :=
  ⟨.ofNat (endsBefore bytes offset).length, .ofNat (offset - startBefore bytes offset)⟩

/-- Nothing in front of the first of some lines is located in them. -/
theorem locateIn_spansFrom_of_lt {offset start here : Nat} (h : offset < start)
    (hstart : start ≤ here) (line : Nat) (rest : Text) :
    locateIn offset line (spansFrom start here rest) = none := by
  fun_induction spansFrom start here rest generalizing line with
  | case1 start here => rw [locateIn, if_neg (by dsimp only; omega), locateIn]
  | case2 start here rest ih | case3 start here rest _ ih | case4 start here rest ih =>
      rw [locateIn, if_neg (by dsimp only; omega), ih (by omega) (Nat.le_refl _)]
  | case5 start here c rest _ _ _ ih => exact ih h (by omega) line

/-- From wherever a scan has come to, the bytes that are in a line are located, each at its
place, and no other ones. -/
theorem ScannedTo.locateIn_iff {bytes : List UInt8} {start here line : Nat} {rest : Text}
    (h : ScannedTo bytes start here line rest) (hstart : start ≤ here) {offset : Nat}
    (hoffset : here ≤ offset) {place : Location} :
    locateIn offset line (spansFrom start here rest) = some place ↔
      InLine bytes offset ∧ place = placeOf bytes offset := by
  -- what a line end is made of is in no line, and the lines behind it begin behind it
  have hend {offset next line : Nat} {rest : Text} (hnot : ¬InLine bytes offset)
      (hlt : offset < next) :
      locateIn offset line (spansFrom next next rest) = some place ↔
        InLine bytes offset ∧ place = placeOf bytes offset := by
    rw [locateIn_spansFrom_of_lt hlt (Nat.le_refl next)]
    exact iff_of_false (fun heq => nomatch heq) fun hin => hnot hin.1
  fun_induction spansFrom start here rest generalizing line with
  | case1 start here =>
      rw [locateIn, if_neg (by dsimp only; omega), locateIn]
      refine iff_of_false (fun heq => nomatch heq) ?_
      rintro ⟨⟨byte, hbyte, -⟩, -⟩
      obtain ⟨i, rfl⟩ := Nat.exists_eq_add_of_le hoffset
      rw [h.getElem?_add] at hbyte
      cases hbyte
  | case2 start here rest ih =>
      have hfeed : ScannedTo bytes start (here + 1) line ('\n' :: rest) := by
        refine h.stay fun i hi hends => ?_
        obtain rfl : i = 0 := Nat.lt_one_iff.mp hi
        exact h.endsAt_return_iff.mp hends rest rfl
      rw [locateIn_skip hoffset]
      rcases Nat.eq_or_lt_of_le hoffset with rfl | hlt
      · exact hend (h.not_inLine (Or.inl rfl)) (by omega)
      rcases Nat.eq_or_lt_of_le hlt with rfl | hlt
      · exact hend (hfeed.not_inLine (Or.inr rfl)) (Nat.lt_succ_self _)
      · exact ih (hfeed.next rfl hfeed.endsAt_feed) (Nat.le_refl _) hlt
  | case3 start here rest hne ih =>
      rw [locateIn_skip hoffset]
      rcases Nat.eq_or_lt_of_le hoffset with rfl | hlt
      · exact hend (h.not_inLine (Or.inl rfl)) (Nat.lt_succ_self _)
      · exact ih (h.next rfl (h.endsAt_return_iff.mpr hne)) (Nat.le_refl _) hlt
  | case4 start here rest ih =>
      rw [locateIn_skip hoffset]
      rcases Nat.eq_or_lt_of_le hoffset with rfl | hlt
      · exact hend (h.not_inLine (Or.inr rfl)) (Nat.lt_succ_self _)
      · exact ih (h.next rfl h.endsAt_feed) (Nat.le_refl _) hlt
  | case5 start here c rest _ hreturn hfeed ih =>
      have hc : ¬EndsRow c := not_or.mpr ⟨hreturn, hfeed⟩
      by_cases hlt : offset < here + c.utf8Size
      · obtain ⟨i, rfl⟩ := Nat.exists_eq_add_of_le hoffset
        have hin : InLine bytes (here + i) := h.inLine_of_lt hc (by omega)
        have hends : endsBefore bytes (here + i) = endsBefore bytes here :=
          endsBefore_add fun j hj => (h.inLine_of_lt hc (by omega)).not_endsAt
        have hplace : placeOf bytes (here + i) = ⟨.ofNat line, .ofNat (here + i - start)⟩ := by
          rw [placeOf, startBefore, hends, h.length_eq, ← startBefore, h.start_eq]
        obtain ⟨stop, others, hspans, hstop⟩ :=
          exists_spansFrom_eq_cons start (here + c.utf8Size) rest
        rw [hspans, locateIn, if_pos (by dsimp only; omega), hplace, Option.some.injEq, eq_comm]
        exact (and_iff_right hin).symm
      · exact ih (h.stay fun i hi => (h.inLine_of_lt hc hi).not_endsAt) (by omega) (by omega)

theorem locate_eq_some_iff {text : Text} (hsize : byteSize text < UInt32.size) {offset : Nat}
    {place : Location} :
    text.locate offset = some place ↔
      InLine (utf8 text) offset ∧ place = placeOf (utf8 text) offset := by
  rw [locate, lineSpans_eq (Nat.le_pred_of_lt hsize)]
  exact (ScannedTo.zero text).locateIn_iff (Nat.le_refl 0) (Nat.zero_le offset)

/-- What is located is not at the end of all positions, and neither is its line or its column. -/
theorem succ_lt_of_locate {text : Text} (hsize : byteSize text < UInt32.size) {offset : Nat}
    {place : Location} (h : text.locate offset = some place) :
    place.line.toNat = (endsBefore (utf8 text) offset).length ∧
    place.column.toNat = offset - startBefore (utf8 text) offset ∧
    place.line.toNat + 1 < UInt32.size ∧ place.column.toNat + 1 < UInt32.size := by
  obtain ⟨hin, rfl⟩ := (locate_eq_some_iff hsize).mp h
  have hlt : offset + 1 < UInt32.size := by
    have hlength := hin.lt_length
    rw [length_utf8] at hlength
    omega
  have hcount := length_endsBefore_le (utf8 text) offset
  have hline : (placeOf (utf8 text) offset).line.toNat = (endsBefore (utf8 text) offset).length :=
    UInt32.toNat_ofNat_of_lt' (by omega)
  have hcolumn : (placeOf (utf8 text) offset).column.toNat =
      offset - startBefore (utf8 text) offset :=
    UInt32.toNat_ofNat_of_lt' (by omega)
  exact ⟨hline, hcolumn, by omega, by omega⟩

theorem toNat_add_one {n : UInt32} (h : n.toNat + 1 < UInt32.size) :
    (n + 1).toNat = n.toNat + 1 := by
  rw [UInt32.toNat_add, UInt32.toNat_one]
  exact Nat.mod_eq_of_lt h

/-- The place of an offset is exact.  An offset is located exactly if it is in the text and
its byte is none of a line end; its line is the number of line ends that are wholly in front
of it, its column the number of bytes since the last of them, and both can be counted from
one, as people read them. -/
theorem locate_exact {text : Text} (hsize : byteSize text < UInt32.size) (offset : Nat) :
    ((∃ place, text.locate offset = some place) ↔ InLine (utf8 text) offset) ∧
    ∀ place, text.locate offset = some place →
      place.line.toNat = (endsBefore (utf8 text) offset).length ∧
      place.column.toNat = offset - startBefore (utf8 text) offset ∧
      place.line.toNat + 1 < UInt32.size ∧ place.column.toNat + 1 < UInt32.size ∧
      place.text = decimal (place.line.toNat + 1) ++ ":" ++ decimal (place.column.toNat + 1) := by
  constructor
  · constructor
    · rintro ⟨place, hlocate⟩
      exact ((locate_eq_some_iff hsize).mp hlocate).1
    · intro hin
      exact ⟨_, (locate_eq_some_iff hsize).mpr ⟨hin, rfl⟩⟩
  · intro place hlocate
    obtain ⟨hline, hcolumn, hlineLt, hcolumnLt⟩ := succ_lt_of_locate hsize hlocate
    refine ⟨hline, hcolumn, hlineLt, hcolumnLt, ?_⟩
    rw [Location.text, toNat_add_one hlineLt, toNat_add_one hcolumnLt]

/-- A byte inside a character, behind a line end of two bytes and a carriage return by itself. -/
theorem locate_exact_inside_character :
    let text : Text := "a\r\n\rbä\r"
    byteSize text < UInt32.size ∧ text.locate 6 = some ⟨2, 2⟩ ∧
      endsBefore (utf8 text) 6 = [2, 3] ∧ startBefore (utf8 text) 6 = 4 ∧
      InLine (utf8 text) 6 ∧ (⟨2, 2⟩ : Location).text = "3:3" := by
  intro text
  have hsize : byteSize text < UInt32.size := by decide
  have hlocate : text.locate 6 = some ⟨2, 2⟩ := by decide
  obtain ⟨hlocated, hplace⟩ := locate_exact hsize 6
  obtain ⟨-, -, -, -, htext⟩ := hplace _ hlocate
  exact ⟨hsize, hlocate, by decide, by decide, hlocated.mp ⟨_, hlocate⟩, htext.trans (by decide)⟩

end ComponentLoader.Text
