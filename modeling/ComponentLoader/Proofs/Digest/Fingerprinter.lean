import ComponentLoader.Proofs.Digest.Fingerprint
import ComponentLoader.Proofs.Module.RoundTrip
import Mathlib.Data.Finset.Card
set_option autoImplicit false

/-!
# What a fingerprinter answers (SPEC §4.6, §8)

What a fingerprinter remembers saves work and nothing else: an answer depends on the text alone,
whatever was asked for before (`Fingerprinter.Knows` is kept by every question).  Every answer is
eight characters long, because a digest has far more bytes than eight symbols stand for, and an id
carries it safely as the scope token of a stylesheet.
-/

namespace ComponentLoader

/-! ## Length -/

namespace Base64

/-- No symbol is taken for what fills up the last group. -/
theorem symbol_ne_padding (n : Nat) : symbol n ≠ padding :=
  forall_symbol (p := (· ≠ padding)) (by decide) n

/-- Six bits to a symbol: so many symbols carry the bits of some bytes. -/
theorem length_filter_encode (bytes : List UInt8) :
    ((encode bytes).filter (· ≠ padding)).length = (4 * bytes.length + 2) / 3 := by
  fun_induction encode bytes with
  | case1 => rfl
  | case2 a n => simp [symbol_ne_padding]
  | case3 a b n => simp [symbol_ne_padding]
  | case4 a b c rest n ih =>
      simp only [List.filter_cons, symbol_ne_padding, ne_eq, not_false_eq_true, decide_true,
        if_true, List.length_cons] at ih ⊢
      omega

end Base64

theorem Fingerprint.length_ofText (text : Text) : (ofText text).length = length := by
  have hsymbols := Base64.length_filter_encode (Sha256.digest text.utf8)
  rw [Sha256.length_digest] at hsymbols
  unfold ofText
  rw [List.length_take, List.length_map, hsymbols]
  rfl

/-! ## Memory -/

namespace Fingerprinter

/-- The fingerprints of some texts, one after the other, and the state after the last one. -/
def fingerprints (state : Fingerprinter) : List Text → List Text × Fingerprinter
  | [] => ([], state)
  | text :: rest =>
    let (token, next) := state.fingerprint text
    let (tokens, last) := next.fingerprints rest
    (token :: tokens, last)

/-- The state knows the fingerprints of exactly these texts, each of them once. -/
structure Knows (state : Fingerprinter) (seen : List Text) : Prop where
  token_eq : ∀ text token, state.known.lookup text = some token → token = Fingerprint.ofText text
  nodup : (state.known.map Prod.fst).Nodup
  mem_iff : ∀ text, text ∈ state.known.map Prod.fst ↔ text ∈ seen

variable {state : Fingerprinter} {seen : List Text}

theorem knows_empty : empty.Knows [] where
  token_eq _ _ h := nomatch h
  nodup := List.nodup_nil
  mem_iff _ := Iff.rfl

/-- A text is answered with its own fingerprint, and is known from then on. -/
theorem Knows.fingerprint (h : state.Knows seen) (text : Text) :
    (state.fingerprint text).1 = Fingerprint.ofText text ∧
      (state.fingerprint text).2.Knows (seen ++ [text]) := by
  unfold Fingerprinter.fingerprint
  cases hlookup : state.known.lookup text with
  | some token =>
      refine ⟨h.token_eq text token hlookup, h.token_eq, h.nodup, fun other => ?_⟩
      have hmem : text ∈ seen := by
        rw [← h.mem_iff]
        obtain ⟨front, back, hknown, -⟩ := List.lookup_eq_some_iff.mp hlookup
        simp [hknown]
      rw [h.mem_iff, List.mem_append, List.mem_singleton]
      exact ⟨Or.inl, fun hother => hother.elim id fun heq => heq ▸ hmem⟩
  | none =>
      have hnew : text ∉ state.known.map Prod.fst := by
        intro hmem
        obtain ⟨entry, hentry, rfl⟩ := List.mem_map.mp hmem
        have hne := List.lookup_eq_none_iff.mp hlookup entry hentry
        simp at hne
      refine ⟨rfl, fun asked token hasked => ?_, List.nodup_cons.mpr ⟨hnew, h.nodup⟩,
        fun other => ?_⟩
      · rw [List.lookup_cons] at hasked
        split at hasked
        · rename_i heq
          cases hasked
          rw [eq_of_beq heq]
        · exact h.token_eq asked token hasked
      · rw [List.map_cons, List.mem_cons, h.mem_iff, List.mem_append, List.mem_singleton, or_comm]

theorem Knows.fingerprints (h : state.Knows seen) (texts : List Text) :
    (state.fingerprints texts).1 = texts.map Fingerprint.ofText ∧
      (state.fingerprints texts).2.Knows (seen ++ texts) := by
  induction texts generalizing state seen with
  | nil => exact ⟨rfl, by rwa [List.append_nil]⟩
  | cons text rest ih =>
      obtain ⟨htoken, hnext⟩ := h.fingerprint text
      obtain ⟨htokens, hlast⟩ := ih hnext
      rw [List.append_assoc, List.singleton_append] at hlast
      exact ⟨List.cons_eq_cons.mpr ⟨htoken, htokens⟩, hlast⟩

theorem Knows.memoized_eq (h : state.Knows seen) : state.memoized = seen.toFinset.card := by
  have hsame : (state.known.map Prod.fst).toFinset = seen.toFinset := by
    ext text
    rw [List.mem_toFinset, List.mem_toFinset, h.mem_iff]
  rw [← hsame, List.toFinset_card_of_nodup h.nodup, List.length_map]
  rfl

end Fingerprinter

/-! ## Answers -/

/-- Every fingerprint can be in the id of a stylesheet, with a path that is in Unicode and holds no
question mark. -/
theorem Fingerprint.writable_stylesheetId {path : NativePath} (hunicode : path.IsUnicode)
    (hpath : questionByte ∉ path.bytes) (text : Text) (index : Option UInt64) :
    NativeId.Writable ⟨path, some (.stylesheet (some ('s' :: ofText text)) index)⟩ where
  unicode := hunicode
  path := hpath
  scope token index' h := by
    cases h
    exact Naming.writable_scopeToken text index _ rfl

/-- Whatever texts a fingerprinter is given in whatever order, each is answered as if it were the
first one, with eight letters, digits, `-` and `_`, and it remembers each of the texts once.  So
with `s` in front every answer can be the scope token in the id of a stylesheet: with a path in
Unicode that holds no question mark the id is read back as it is.  With a path that is not in
Unicode no id is read back. -/
theorem fingerprints_of_history (texts : List Text) :
    let tokens := (Fingerprinter.empty.fingerprints texts).1
    let state := (Fingerprinter.empty.fingerprints texts).2
    tokens = texts.map (fun text => (Fingerprinter.empty.fingerprint text).1) ∧
      state.memoized = texts.toFinset.card ∧
      ∀ token ∈ tokens, token.length = 8 ∧
        (∀ c ∈ token,
          'A' ≤ c ∧ c ≤ 'Z' ∨ 'a' ≤ c ∧ c ≤ 'z' ∨ '0' ≤ c ∧ c ≤ '9' ∨ c = '-' ∨ c = '_') ∧
        ∀ (path : NativePath) (index : Option UInt64), questionByte ∉ path.bytes →
          let id : NativeId := ⟨path, some (.stylesheet (some ('s' :: token)) index)⟩
          (path.IsUnicode → NativeId.parse id.text = .ok id) ∧
            (¬path.IsUnicode → ¬∃ read, NativeId.parse id.text = .ok read ∧ read.Same id) := by
  intro tokens state
  obtain ⟨htokens, hknows⟩ := Fingerprinter.knows_empty.fingerprints texts
  refine ⟨htokens, hknows.memoized_eq, fun token hmem => ?_⟩
  have hmem : token ∈ texts.map Fingerprint.ofText := htokens ▸ hmem
  obtain ⟨text, -, rfl⟩ := List.mem_map.mp hmem
  have hchars : ∀ c ∈ Fingerprint.ofText text, Fingerprint.isTokenChar c = true :=
    fun c => Fingerprint.isTokenChar_of_mem
  refine ⟨Fingerprint.length_ofText text, fun c hc => Fingerprint.isTokenChar_iff.mp (hchars c hc),
    fun path index hpath => ⟨fun hunicode => ?_, fun hstray hback => ?_⟩⟩
  · exact (Fingerprint.writable_stylesheetId hunicode hpath text index).parse_text
  · exact hstray (NativeId.exists_same_iff_writable.mp hback).unicode

/-- Two texts, one of them again, and ids with the last answer: one with the path of a card and one
with a byte that begins no character. -/
theorem fingerprints_of_history_repeated :
    let texts : List Text := ["", "abc", ""]
    let tokens := (Fingerprinter.empty.fingerprints texts).1
    let state := (Fingerprinter.empty.fingerprints texts).2
    let card : NativePath := .ofPath ⟨"src/card.html"⟩
    let stray : NativePath := ⟨[0xFF]⟩
    let id (path : NativePath) : NativeId :=
      ⟨path, some (.stylesheet (some "s47DEQpj8".toList) (some 0))⟩
    tokens = ["47DEQpj8", "ungWv48B", "47DEQpj8"] ∧ state.memoized = 2 ∧
      (questionByte ∉ card.bytes ∧ card.IsUnicode ∧
        NativeId.parse (id card).text = .ok (id card)) ∧
      questionByte ∉ stray.bytes ∧ ¬stray.IsUnicode ∧
        ¬∃ read, NativeId.parse (id stray).text = .ok read ∧ read.Same (id stray) := by
  intro texts tokens state card stray id
  obtain ⟨-, hmemoized, htokens⟩ := fingerprints_of_history texts
  have hanswers : tokens = ["47DEQpj8", "ungWv48B", "47DEQpj8"] := by decide +kernel
  have hmem : "47DEQpj8".toList ∈ tokens := by rw [hanswers]; exact List.mem_cons_self
  obtain ⟨-, -, hid⟩ := htokens _ hmem
  have hcard : questionByte ∉ card.bytes := by decide
  have hstray : questionByte ∉ stray.bytes := by decide
  have hunicode : card.IsUnicode := NativePath.isUnicode_ofPath _
  have hnot : ¬stray.IsUnicode := by decide +kernel
  exact ⟨hanswers, hmemoized.trans (by decide),
    ⟨hcard, hunicode, (hid card (some 0) hcard).1 hunicode⟩,
    hstray, hnot, (hid stray (some 0) hstray).2 hnot⟩

/-- The fingerprint of a text in the id of a stylesheet whose path is a stray byte. -/
theorem fingerprint_not_read_back_of_stray_byte :
    let token := (Fingerprinter.empty.fingerprint "abc").1
    let path : NativePath := ⟨[0xFF]⟩
    let id : NativeId := ⟨path, some (.stylesheet (some ('s' :: token)) (some 0))⟩
    questionByte ∉ path.bytes ∧
      id.text = "\uFFFD?type=componentStylesheet&scope=sungWv48B&i=0".toList ∧
      ¬∃ read, NativeId.parse id.text = .ok read ∧ read.Same id := by
  intro token path id
  have hstray : ¬path.IsUnicode := by decide +kernel
  exact ⟨by decide, by decide +kernel,
    fun hback => hstray (NativeId.exists_same_iff_writable.mp hback).unicode⟩

end ComponentLoader
