import ComponentLoader.FilePath.Basic
import ComponentLoader.Proofs.Text.Basic
import ComponentLoader.Proofs.Text.Offset
import Mathlib.Data.List.Basic
import Mathlib.Data.Set.List
set_option autoImplicit false

/-!
# Paths as bytes (SPEC §3)

A path is cut into segments at its bytes.  In the UTF-8 form of a text the bytes of slashes and dots
stand for slashes and dots only, so a path in Unicode is cut there just as its text is: `spread`
takes the segments of a text to those of its bytes.  So two texts spell one path exactly if their
bytes do (`same_ofPath_iff`), and of the spellings of one path either all are in Unicode or none is
(`IsUnicode.of_same`).
-/

namespace ComponentLoader.NativePath

open FilePath

/-! ## Texts spread out -/

/-- One character for each byte of the UTF-8 form of a text. -/
def spread (text : Text) : Text :=
  (Text.utf8 text).map Char.ofUInt8

@[simp]
theorem spread_nil : spread [] = [] :=
  rfl

@[simp]
theorem bytewise_ofPath (path : FilePath) : (ofPath path).bytewise = ⟨spread path.text⟩ :=
  rfl

theorem spread_append (front rest : Text) :
    spread (front ++ rest) = spread front ++ spread rest := by
  unfold spread Text.utf8
  rw [List.flatMap_append, List.map_append]

theorem spread_cons (c : Char) (rest : Text) : spread (c :: rest) = spread [c] ++ spread rest :=
  spread_append [c] rest

theorem toNat_ofUInt8 (byte : UInt8) : (Char.ofUInt8 byte).toNat = byte.toNat :=
  rfl

theorem ofUInt8_injective : Function.Injective Char.ofUInt8 := by
  intro a b heq
  have hnat := congrArg Char.toNat heq
  rw [toNat_ofUInt8, toNat_ofUInt8] at hnat
  exact UInt8.toNat_inj.mp hnat

theorem spread_injective : Function.Injective spread :=
  ofUInt8_injective.list_map.comp Text.utf8_injective

theorem spread_singleton_ne_nil (c : Char) : spread [c] ≠ [] := by
  rw [← spread_nil]
  exact spread_injective.ne (List.cons_ne_nil c [])

/-- The path is spelled with a text exactly if its characters are those of the text, spread out. -/
theorem isUnicode_iff {path : NativePath} :
    path.IsUnicode ↔ ∃ text, spread text = path.bytewise.text :=
  exists_congr fun _ => ofUInt8_injective.list_map.eq_iff.symm

section Ascii

variable {d : Char} (hd : d.toNat < 128)
include hd

theorem ofUInt8_ofNat : Char.ofUInt8 (UInt8.ofNat d.toNat) = d := by
  apply Char.toNat_inj.mp
  rw [toNat_ofUInt8]
  exact UInt8.toNat_ofNat_of_lt' (Nat.lt_trans hd (by decide))

theorem spread_singleton : spread [d] = [d] := by
  have hform : String.utf8EncodeChar d = [UInt8.ofNat d.toNat] := by
    unfold String.utf8EncodeChar
    exact if_pos (Nat.le_of_lt_succ hd)
  rw [spread, Text.utf8, List.flatMap_singleton, hform, List.map_singleton, ofUInt8_ofNat hd]

/-- The byte of a character below 128 stands for no other one. -/
theorem mem_of_mem_spread {text : Text} (h : d ∈ spread text) : d ∈ text := by
  obtain ⟨byte, hbyte, heq⟩ := List.mem_map.mp h
  obtain ⟨c, hc, hmem⟩ := List.mem_flatMap.mp hbyte
  have hsame : byte = UInt8.ofNat d.toNat :=
    ofUInt8_injective (heq.trans (ofUInt8_ofNat hd).symm)
  rwa [← Text.eq_of_mem_utf8EncodeChar hd (hsame ▸ hmem)]

/-- What begins with such a character when it is spread out did so before. -/
theorem exists_of_spread_eq_cons {text rest : Text} (h : spread text = d :: rest) :
    ∃ more, text = d :: more ∧ spread more = rest := by
  cases text with
  | nil => cases h
  | cons c more =>
      rw [spread_cons] at h
      obtain ⟨first, others, hfirst⟩ := List.exists_cons_of_ne_nil (spread_singleton_ne_nil c)
      rw [hfirst, List.cons_append] at h
      obtain rfl : first = d := (List.cons.inj h).1
      have hmem : first ∈ spread [c] := hfirst ▸ List.mem_cons_self
      obtain rfl : first = c := List.mem_singleton.mp (mem_of_mem_spread hd hmem)
      obtain rfl : others = [] := (List.cons.inj (hfirst.symm.trans (spread_singleton hd))).2
      exact ⟨more, rfl, (List.cons.inj h).2⟩

theorem spread_join (pieces : List Text) :
    spread (Text.join [d] pieces) = Text.join [d] (pieces.map spread) := by
  induction pieces with
  | nil => rfl
  | cons piece others ih =>
      cases others with
      | nil => simp
      | cons next more =>
          rw [Text.join_cons_cons, spread_append, spread_append, spread_singleton hd, ih]
          simp

/-- Texts are cut at such a character where their bytes are. -/
theorem splitOn_spread (text : Text) :
    Text.splitOn d (spread text) = (Text.splitOn d text).map spread := by
  calc
    Text.splitOn d (spread text)
        = Text.splitOn d (Text.join [d] ((Text.splitOn d text).map spread)) := by
          rw [← spread_join hd, Text.join_splitOn]
    _ = (Text.splitOn d text).map spread := by
          refine Text.splitOn_join (by simpa using Text.splitOn_ne_nil d text) ?_
          intro piece hmem
          obtain ⟨origin, horigin, rfl⟩ := List.mem_map.mp hmem
          exact fun h => Text.not_mem_of_mem_splitOn horigin (mem_of_mem_spread hd h)

end Ascii

/-! ## Segments of a spread text -/

theorem spread_slash_cons (rest : Text) : spread ('/' :: rest) = '/' :: spread rest := by
  rw [spread_cons, spread_singleton (by decide), List.singleton_append]

theorem spread_dot_cons (rest : Text) : spread ('.' :: rest) = '.' :: spread rest := by
  rw [spread_cons, spread_singleton (by decide), List.singleton_append]

/-- A segment with its name spread out. -/
def spreadSegment : Segment → Segment
  | .name text => .name (spread text)
  | segment => segment

theorem spreadSegment_injective : Function.Injective spreadSegment := by
  intro a b h
  cases a <;> cases b <;> simp_all [spreadSegment, spread_injective.eq_iff]

theorem text_spreadSegment (segment : Segment) :
    (spreadSegment segment).text = spread segment.text := by
  cases segment with
  | name text => rfl
  | root => exact (spread_slash_cons []).symm
  | here => exact (spread_dot_cons []).symm
  | up => exact ((spread_dot_cons ['.']).trans (congrArg _ (spread_dot_cons []))).symm

theorem bodySegment?_spread (piece : Text) :
    bodySegment? (spread piece) = (bodySegment? piece).map spreadSegment := by
  have hdot : spread ['.'] = ['.'] := spread_dot_cons []
  have hdots : spread ['.', '.'] = ['.', '.'] := (spread_dot_cons ['.']).trans (congrArg _ hdot)
  have hempty : spread piece = [] ↔ piece = [] := spread_injective.eq_iff' spread_nil
  have hhere : spread piece = ['.'] ↔ piece = ['.'] := spread_injective.eq_iff' hdot
  have hup : spread piece = ['.', '.'] ↔ piece = ['.', '.'] := spread_injective.eq_iff' hdots
  unfold bodySegment?
  simp only [hempty, hhere, hup]
  split
  · rfl
  · split <;> rfl

theorem front_spread (text : Text) :
    front (spread text) = ((front text).1, spread (front text).2) := by
  fun_cases front text with
  | case1 body => rw [spread_slash_cons]; rfl
  | case2 => rw [spread_dot_cons]; rfl
  | case3 body => rw [spread_dot_cons, spread_slash_cons]; rfl
  | case4 _ hroot hhere hbelow =>
      generalize hspread : spread text = letters
      fun_cases front letters with
      | case1 body =>
          obtain ⟨more, rfl, -⟩ := exists_of_spread_eq_cons (by decide) hspread
          exact absurd rfl (hroot more)
      | case2 =>
          obtain ⟨more, rfl, hmore⟩ := exists_of_spread_eq_cons (by decide) hspread
          obtain rfl : more = [] := spread_injective hmore
          exact absurd rfl hhere
      | case3 body =>
          obtain ⟨more, rfl, hmore⟩ := exists_of_spread_eq_cons (by decide) hspread
          obtain ⟨last, rfl, -⟩ := exists_of_spread_eq_cons (by decide) hmore
          exact absurd rfl (hbelow last)
      | case4 => rfl

theorem segments_spread (text : Text) :
    (FilePath.mk (spread text)).segments = (FilePath.mk text).segments.map spreadSegment := by
  have hfront : (front text).1.map spreadSegment = (front text).1 := by
    fun_cases front text <;> rfl
  have hpieces (pieces : List Text) :
      (pieces.map spread).filterMap bodySegment? =
        (pieces.filterMap bodySegment?).map spreadSegment := by
    rw [List.filterMap_map, List.map_filterMap]
    exact List.filterMap_congr fun piece _ => bodySegment?_spread piece
  unfold segments
  simp only [front_spread, List.map_append, hfront]
  rw [splitOn_spread (by decide), hpieces]

theorem same_ofPath_iff {p q : FilePath} : (ofPath p).Same (ofPath q) ↔ p.Same q := by
  unfold NativePath.Same FilePath.Same
  rw [bytewise_ofPath, bytewise_ofPath, segments_spread, segments_spread]
  exact spreadSegment_injective.list_map.eq_iff

/-! ## Spellings in Unicode -/

/-- A body is in Unicode if its segments are. -/
theorem exists_spread_body {body : Text}
    (h : ∀ segment ∈ (Text.splitOn '/' body).filterMap bodySegment?,
      ∃ text, spread text = segment.text) :
    ∃ text, spread text = body := by
  have hpieces : ∀ piece ∈ Text.splitOn '/' body, piece ∈ Set.range spread := by
    intro piece hmem
    cases hsegment : bodySegment? piece with
    | some segment =>
        obtain ⟨text, htext⟩ := h segment (List.mem_filterMap.mpr ⟨piece, hmem, hsegment⟩)
        exact ⟨text, htext.trans (text_of_bodySegment? hsegment)⟩
    | none =>
        -- a piece without a segment is empty or a dot
        unfold bodySegment? at hsegment
        split at hsegment
        · rename_i hblank
          rcases hblank with rfl | rfl
          · exact ⟨[], spread_nil⟩
          · exact ⟨['.'], spread_dot_cons []⟩
        · split at hsegment <;> cases hsegment
  obtain ⟨texts, htexts⟩ : Text.splitOn '/' body ∈ Set.range (List.map spread) := by
    rw [Set.range_list_map]
    exact hpieces
  refine ⟨Text.join ['/'] texts, ?_⟩
  rw [spread_join (by decide), htexts, Text.join_splitOn]

/-- So is a path: the segment in front of its body is a slash or a dot. -/
theorem isUnicode_of_segments {path : NativePath}
    (h : ∀ segment ∈ path.bytewise.segments, ∃ text, spread text = segment.text) :
    path.IsUnicode := by
  rw [isUnicode_iff]
  generalize path.bytewise = letters at h ⊢
  obtain ⟨letters⟩ := letters
  have hwhole : (front letters).1.flatMap Segment.text ++ (front letters).2 = letters := by
    fun_cases front letters <;> rfl
  have hlead : spread ((front letters).1.flatMap Segment.text) =
      (front letters).1.flatMap Segment.text := by
    fun_cases front letters with
    | case1 => exact spread_slash_cons []
    | case2 => exact spread_dot_cons []
    | case3 => exact spread_dot_cons []
    | case4 => exact spread_nil
  obtain ⟨body, hbody⟩ : ∃ body, spread body = (front letters).2 :=
    exists_spread_body fun segment hmem => h segment (List.mem_append_right _ hmem)
  refine ⟨(front letters).1.flatMap Segment.text ++ body, ?_⟩
  rw [spread_append, hlead, hbody, hwhole]

/-- Of the spellings of one path all are in Unicode or none. -/
theorem IsUnicode.of_same {p q : NativePath} (hq : q.IsUnicode) (h : p.Same q) : p.IsUnicode := by
  obtain ⟨path, rfl⟩ := hq.exists_eq_ofPath
  refine isUnicode_of_segments fun segment hmem => ?_
  rw [show p.bytewise.segments = _ from h, bytewise_ofPath, segments_spread] at hmem
  obtain ⟨origin, -, rfl⟩ := List.mem_map.mp hmem
  exact ⟨origin.text, (text_spreadSegment origin).symm⟩

end ComponentLoader.NativePath
