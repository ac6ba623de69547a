import ComponentLoader.Proofs.FilePath.Native
import ComponentLoader.Proofs.Module.KeyValue
set_option autoImplicit false

/-!
# Ids that survive being written (SPEC §3, §8)

An id is read back from its text exactly if its path is in Unicode and holds no question mark and
its scope token, if it has one, is not empty and holds no `&` (`NativeId.Writable`).  Every id that
was read is of this kind, because a path ends at the first question mark and a value at the next
`&`, and because an empty scope token counts as none.  So it is only ids that are put together from
parts that can be lost.

It is not asked that the path be spelled the same again, but it always is.
-/

namespace ComponentLoader

/-! ## Characters of paths -/

namespace FilePath

/-- Every character of a body that is neither a slash nor a dot is in a segment of it. -/
theorem mem_bodySegments_iff {c : Char} (hslash : c ≠ '/') (hdot : c ≠ '.') (body : Text) :
    (∃ segment ∈ (Text.splitOn '/' body).filterMap bodySegment?, c ∈ segment.text) ↔ c ∈ body := by
  rw [← Text.mem_splitOn_iff hslash]
  constructor
  · rintro ⟨segment, hmem, hc⟩
    obtain ⟨piece, hpiece, hsegment⟩ := List.mem_filterMap.mp hmem
    exact ⟨piece, hpiece, text_of_bodySegment? hsegment ▸ hc⟩
  · rintro ⟨piece, hpiece, hc⟩
    -- a piece without a segment holds dots at most
    have hstays : ¬ (piece = [] ∨ piece = ['.']) := by
      rintro (rfl | rfl)
      · cases hc
      · exact hdot (List.mem_singleton.mp hc)
    obtain ⟨segment, hsegment⟩ : ∃ segment, bodySegment? piece = some segment := by
      unfold bodySegment?
      rw [if_neg hstays]
      split <;> exact ⟨_, rfl⟩
    exact ⟨segment, List.mem_filterMap.mpr ⟨piece, hpiece, hsegment⟩,
      (text_of_bodySegment? hsegment).symm ▸ hc⟩

/-- The same of a path. -/
theorem mem_segments_iff {c : Char} (hslash : c ≠ '/') (hdot : c ≠ '.') {path : FilePath} :
    (∃ segment ∈ path.segments, c ∈ segment.text) ↔ c ∈ path.text := by
  have hbody := mem_bodySegments_iff hslash hdot
  have hroot : c ∉ Segment.root.text := by simpa [Segment.text] using hslash
  have hhere : c ∉ Segment.here.text := by simpa [Segment.text] using hdot
  obtain ⟨text⟩ := path
  unfold segments
  fun_cases front text with
  | case1 body =>
      simp only [List.cons_append, List.nil_append, List.mem_cons, exists_eq_or_imp, hroot, hslash,
        hbody, false_or]
  | case2 => simp [hhere, hdot, Text.splitOn, bodySegment?]
  | case3 body =>
      simp only [List.cons_append, List.nil_append, List.mem_cons, exists_eq_or_imp, hhere, hslash,
        hdot, hbody, false_or]
  | case4 => exact hbody _

/-- Spellings of one path hold the same characters beside slashes and dots. -/
theorem Same.mem_text_iff {p q : FilePath} (h : p.Same q) {c : Char} (hslash : c ≠ '/')
    (hdot : c ≠ '.') : c ∈ p.text ↔ c ∈ q.text := by
  rw [← mem_segments_iff hslash hdot, ← mem_segments_iff hslash hdot, h]

end FilePath

/-! ## What is read can be written -/

/-- The path of the id ends where it is cut, and its scope token is one that a query can carry. -/
structure ModuleId.Writable (id : ModuleId) : Prop where
  path : '?' ∉ id.path.text
  scope : ∀ token index, id.part = some (.stylesheet (some token) index) → token ≠ [] ∧ '&' ∉ token

namespace ModuleId

theorem Writable.part {id : ModuleId} (h : id.Writable) {part : ModulePart}
    (hpart : id.part = some part) : part.Writable := by
  cases part with
  | script index => trivial
  | stylesheet scope index =>
      rintro token rfl
      exact h.scope token index hpart

namespace Query

/-- The scope token that was read from a query, if there is one, is one that a query can carry. -/
def HoldsToken (query : Query) : Prop :=
  ∀ token, query.scope = some token → token ≠ [] ∧ '&' ∉ token

/-- A pair ends at the next `&`, and so does its value. -/
theorem not_mem_value {pair : Text} (h : '&' ∉ pair) : '&' ∉ (splitPair pair).2 := by
  unfold splitPair
  cases hcut : Text.cut '=' pair with
  | none => exact List.not_mem_nil
  | some found =>
      obtain ⟨key, value⟩ := found
      intro hmem
      rw [Text.cut_eq_some hcut] at h
      exact h (List.mem_append_right _ (List.mem_cons_of_mem _ hmem))

theorem holdsToken_of_parse {text : Text} {query : Query} (h : Query.parse text = .ok query) :
    query.HoldsToken := by
  intro token htoken
  rw [scope_of_parse h] at htoken
  obtain ⟨hvalue, hne⟩ := List.mem_filter.mp (List.mem_of_getLast? htoken)
  obtain ⟨pair, hmem, hpair⟩ := (mem_keyValues_iff (by decide)).mp (mem_valuesOf.mp hvalue)
  have hclosed := not_mem_value (Text.not_mem_of_mem_splitOn hmem)
  rw [hpair] at hclosed
  exact ⟨of_decide_eq_true hne, hclosed⟩

/-- The part that a query asks for has the scope token of the query. -/
theorem scope_of_part {query : Query} {scope : Option Text} {index : Option UInt64}
    (h : query.part = .ok (some (.stylesheet scope index))) : query.scope = scope := by
  unfold Query.part at h
  split at h
  · cases h
  · split at h
    · split at h <;> cases h
    · split at h
      · cases h
        rfl
      · cases h

end Query

theorem writable_of_parse {text : Text} {id : ModuleId} (h : parse text = .ok id) :
    id.Writable := by
  refine ⟨not_mem_path_of_parse h, ?_⟩
  intro token index hpart
  rcases parse_eq_ok_iff.mp h with ⟨-, rfl⟩ | ⟨path, query, asked, part, -, hquery, hasked, rfl⟩
  · cases hpart
  · rw [show part = _ from hpart] at hasked
    exact Query.holdsToken_of_parse hquery token (Query.scope_of_part hasked)

/-! ## Exactly these are read back -/

/-- Two ids that ask for the same can both be written or neither. -/
theorem Writable.of_same {a b : ModuleId} (h : a.Writable) (hsame : a.Same b) : b.Writable := by
  obtain ⟨hpath, hpart⟩ := hsame
  refine ⟨?_, ?_⟩
  · rw [← hpath.mem_text_iff (by decide) (by decide)]
    exact h.path
  · intro token index hstylesheet
    exact h.scope token index (hpart.trans hstylesheet)

theorem Writable.parse_text {id : ModuleId} (h : id.Writable) : parse id.text = .ok id :=
  ModuleId.parse_text h.path fun _ hpart => h.part hpart

theorem exists_same_iff_writable {id : ModuleId} :
    (∃ read, parse id.text = .ok read ∧ read.Same id) ↔ id.Writable := by
  constructor
  · rintro ⟨read, hread, hsame⟩
    exact (writable_of_parse hread).of_same hsame
  · intro hwritable
    exact ⟨id, hwritable.parse_text, .refl id.path, rfl⟩

end ModuleId

/-! ## Any path -/

/-- The byte of a question mark. -/
def questionByte : UInt8 :=
  0x3F

/-- The path of the id is in Unicode and ends where it is cut, and its scope token is one that a
query can carry. -/
structure NativeId.Writable (id : NativeId) : Prop where
  unicode : id.path.IsUnicode
  path : questionByte ∉ id.path.bytes
  scope : ∀ token index, id.part = some (.stylesheet (some token) index) → token ≠ [] ∧ '&' ∉ token

namespace NativeId

theorem exists_eq_ofId {id : NativeId} (h : id.path.IsUnicode) : ∃ known, id = ofId known := by
  obtain ⟨path, part⟩ := id
  obtain ⟨known, rfl⟩ := h.exists_eq_ofPath
  exact ⟨⟨known, part⟩, rfl⟩

theorem same_ofId_iff {a b : ModuleId} : (ofId a).Same (ofId b) ↔ a.Same b :=
  and_congr NativePath.same_ofPath_iff Iff.rfl

theorem writable_ofId_iff {id : ModuleId} : (ofId id).Writable ↔ id.Writable := by
  have hmark : questionByte ∈ (NativePath.ofPath id.path).bytes ↔ '?' ∈ id.path.text := by
    constructor
    · intro hmem
      obtain ⟨c, hc, hbyte⟩ := List.mem_flatMap.mp hmem
      rwa [← Text.eq_of_mem_utf8EncodeChar (d := '?') (by decide) hbyte]
    · intro hmem
      exact List.mem_flatMap.mpr ⟨'?', hmem, by decide⟩
  constructor
  · rintro ⟨-, hpath, hscope⟩
    exact ⟨fun hmem => hpath (hmark.mpr hmem), hscope⟩
  · rintro ⟨hpath, hscope⟩
    exact ⟨NativePath.isUnicode_ofPath id.path, fun hmem => hpath (hmark.mp hmem), hscope⟩

/-- What is read is the id that the same text has among those in Unicode. -/
theorem parse_eq_ok_iff {text : Text} {id : NativeId} :
    parse text = .ok id ↔ ∃ known, ModuleId.parse text = .ok known ∧ id = ofId known := by
  unfold parse
  cases ModuleId.parse text with
  | error e => simp [Except.map]
  | ok known => simp [Except.map, eq_comm]

theorem Writable.parse_text {id : NativeId} (h : id.Writable) : parse id.text = .ok id := by
  obtain ⟨known, rfl⟩ := exists_eq_ofId h.unicode
  rw [text_ofId]
  exact parse_eq_ok_iff.mpr ⟨known, (writable_ofId_iff.mp h).parse_text, rfl⟩

theorem exists_same_iff_writable {id : NativeId} :
    (∃ read, parse id.text = .ok read ∧ read.Same id) ↔ id.Writable := by
  constructor
  · rintro ⟨read, hread, hsame⟩
    obtain ⟨found, hfound, rfl⟩ := parse_eq_ok_iff.mp hread
    -- what was read is in Unicode, and so is every spelling of its path
    have hunicode : id.path.IsUnicode :=
      (NativePath.isUnicode_ofPath found.path).of_same hsame.1.symm
    obtain ⟨known, rfl⟩ := exists_eq_ofId hunicode
    rw [text_ofId] at hfound
    exact writable_ofId_iff.mpr
      (ModuleId.exists_same_iff_writable.mp ⟨found, hfound, same_ofId_iff.mp hsame⟩)
  · intro hwritable
    exact ⟨id, hwritable.parse_text, .refl _, rfl⟩

/-- An id is read back from its text, up to the spelling of its path, exactly if its path is in
Unicode and holds no question mark and its scope token is not empty and holds no `&`.  Every id that
is read from some text is such an id, and is read back as it is. -/
theorem read_back_iff_writable :
    (∀ id : NativeId, (∃ read, parse id.text = .ok read ∧ read.Same id) ↔ id.Writable) ∧
      ∀ text id, parse text = .ok id → id.Writable ∧ parse id.text = .ok id := by
  refine ⟨fun id => exists_same_iff_writable, fun text id hread => ?_⟩
  obtain ⟨known, hknown, rfl⟩ := parse_eq_ok_iff.mp hread
  have hwritable := writable_ofId_iff.mpr (ModuleId.writable_of_parse hknown)
  exact ⟨hwritable, hwritable.parse_text⟩

/-- An id with keys given twice, an empty pair, a signed number with zeros in front and a value that
looks like pairs and queries itself. -/
theorem read_back_of_crowded_query :
    let text : Text :=
      "a//./b.html?v&i=+007&type=componentScript&scope=a=b?i=1&&type=componentStylesheet&scope="
    let id : NativeId :=
      ⟨.ofPath ⟨"a//./b.html"⟩, some (.stylesheet (some "a=b?i=1".toList) (some 7))⟩
    parse text = .ok id ∧ id.Writable ∧ parse id.text = .ok id := by
  intro text id
  have hread : parse text = .ok id := by rfl
  exact ⟨hread, read_back_iff_writable.2 text id hread⟩

/-- A name of one byte that begins no character: its text names the file U+FFFD. -/
theorem not_read_back_of_stray_byte :
    let id : NativeId := ⟨⟨[0xFF]⟩, none⟩
    questionByte ∉ id.path.bytes ∧
      (∀ token index, id.part = some (.stylesheet (some token) index) → token ≠ [] ∧ '&' ∉ token) ∧
      id.text = ['\uFFFD'] ∧ ¬∃ read, parse id.text = .ok read ∧ read.Same id := by
  intro id
  have hstray : ¬id.path.IsUnicode := by decide +kernel
  refine ⟨by decide, nofun, by decide +kernel, fun hback => hstray ?_⟩
  exact (exists_same_iff_writable.mp hback).unicode

end NativeId

end ComponentLoader
