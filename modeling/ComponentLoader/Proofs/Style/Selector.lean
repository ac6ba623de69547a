import ComponentLoader.Proofs.Text.Basic
import ComponentLoader.Proofs.Text.Space
import ComponentLoader.Style.Scope
set_option autoImplicit false

/-!
# Selector lists (SPEC §4.3)

The commas of a selector list stand outside brackets: the text before such a comma opens as many
brackets as it closes.  `IsSelectorList` says this without a scanner, and `splitCommas` finds the
selectors.  Each of them gets one marker, and the blanks around it are lost.

Brackets are counted in all of the text, so one that stands in a string or in a comment counts, and
a comma there may part selectors.
-/

namespace ComponentLoader

namespace Scope

/-! ## Brackets -/

/-- How many brackets a character opens. -/
def bracketWeight (c : Char) : Int :=
  if c = '(' ∨ c = '[' then 1
  else if c = ')' ∨ c = ']' then -1
  else 0

/-- How many more brackets a text opens than it closes. -/
def bracketDepth : Text → Int
  | [] => 0
  | c :: rest => bracketWeight c + bracketDepth rest

theorem bracketDepth_eq_zero {text : Text}
    (h : ∀ c ∈ text, c ≠ '(' ∧ c ≠ '[' ∧ c ≠ ')' ∧ c ≠ ']') : bracketDepth text = 0 := by
  induction text with
  | nil => rfl
  | cons c rest ih =>
      have hc := h c List.mem_cons_self
      rw [bracketDepth, ih fun d hmem => h d (List.mem_cons_of_mem _ hmem)]
      simp [bracketWeight, hc]

theorem bracketDepth_append (front rest : Text) :
    bracketDepth (front ++ rest) = bracketDepth front + bracketDepth rest := by
  induction front with
  | nil => simp [bracketDepth]
  | cons c front ih => rw [List.cons_append, bracketDepth, bracketDepth, ih, Int.add_assoc]

/-- No comma of a text parts selectors, if `depth` brackets are open in front of the text. -/
def NoSeparator (depth : Int) (text : Text) : Prop :=
  ∀ before after, text = before ++ ',' :: after → depth + bracketDepth before ≠ 0

theorem noSeparator_cons_iff {depth : Int} {c : Char} {rest : Text} :
    NoSeparator depth (c :: rest) ↔
      ¬(c = ',' ∧ depth = 0) ∧ NoSeparator (depth + bracketWeight c) rest := by
  constructor
  · intro h
    refine ⟨?_, ?_⟩
    · rintro ⟨rfl, rfl⟩
      exact h [] rest rfl rfl
    · rintro before after rfl
      have := h (c :: before) after rfl
      rwa [bracketDepth, ← Int.add_assoc] at this
  · rintro ⟨hc, hrest⟩ before after heq
    cases before with
    | nil =>
        cases heq
        exact fun hdepth => hc ⟨rfl, by simpa [bracketDepth] using hdepth⟩
    | cons d before =>
        cases heq
        rw [bracketDepth, ← Int.add_assoc]
        exact hrest before after rfl

/-- The first comma of a text that parts selectors, if there is one. -/
theorem noSeparator_or_exists (depth : Int) (text : Text) :
    NoSeparator depth text ∨ ∃ front rest, text = front ++ ',' :: rest ∧ NoSeparator depth front ∧
      depth + bracketDepth front = 0 := by
  induction text generalizing depth with
  | nil => exact Or.inl fun before after heq => absurd heq (by simp)
  | cons c text ih =>
      by_cases hc : c = ',' ∧ depth = 0
      · obtain ⟨rfl, rfl⟩ := hc
        exact Or.inr ⟨[], text, rfl, fun before after heq => absurd heq (by simp), rfl⟩
      · rcases ih (depth + bracketWeight c) with hnone | ⟨front, rest, rfl, hfront, hdepth⟩
        · exact Or.inl (noSeparator_cons_iff.mpr ⟨hc, hnone⟩)
        · refine Or.inr ⟨c :: front, rest, rfl, noSeparator_cons_iff.mpr ⟨hc, hfront⟩, ?_⟩
          rw [bracketDepth, ← Int.add_assoc, hdepth]

/-! ## Splitting -/

theorem splitCommas_ne_nil (depth : Int) (text : Text) : splitCommas depth text ≠ [] := by
  cases text with
  | nil => simp [splitCommas]
  | cons c rest =>
      unfold splitCommas
      split
      · simp
      · dsimp only
        split <;> simp

theorem splitCommas_cons {depth : Int} {c : Char} (h : ¬(c = ',' ∧ depth = 0)) (rest : Text) :
    splitCommas depth (c :: rest) =
      Text.consFirst c (splitCommas (depth + bracketWeight c) rest) := by
  have hdepth : (if c = '(' ∨ c = '[' then depth + 1
      else if c = ')' ∨ c = ']' then depth - 1 else depth) = depth + bracketWeight c := by
    unfold bracketWeight
    split
    · rfl
    · split <;> omega
  rw [splitCommas, if_neg h]
  simp only [hdepth]
  cases splitCommas (depth + bracketWeight c) rest <;> rfl

/-- A character that parts no selectors is the first of the first selector. -/
theorem exists_splitCommas_cons {depth : Int} {c : Char} (h : ¬(c = ',' ∧ depth = 0))
    (rest : Text) :
    ∃ first others, splitCommas depth (c :: rest) = (c :: first) :: others := by
  obtain ⟨first, others, hrest⟩ :=
    List.exists_cons_of_ne_nil (splitCommas_ne_nil (depth + bracketWeight c) rest)
  rw [splitCommas_cons h, hrest]
  exact ⟨first, others, rfl⟩

/-- A text without a comma that parts selectors goes to the first of the selectors behind it. -/
theorem splitCommas_append {depth : Int} {front : Text} (h : NoSeparator depth front)
    (rest : Text) :
    ∃ first others, splitCommas (depth + bracketDepth front) rest = first :: others ∧
      splitCommas depth (front ++ rest) = (front ++ first) :: others := by
  induction front generalizing depth with
  | nil =>
      obtain ⟨first, others, hrest⟩ := List.exists_cons_of_ne_nil (splitCommas_ne_nil depth rest)
      exact ⟨first, others, by simpa [bracketDepth] using hrest, hrest⟩
  | cons c front ih =>
      obtain ⟨hc, hfront⟩ := noSeparator_cons_iff.mp h
      obtain ⟨first, others, hrest, hall⟩ := ih hfront
      refine ⟨first, others, ?_, ?_⟩
      · rw [← hrest, bracketDepth, Int.add_assoc]
      · rw [List.cons_append, splitCommas_cons hc, hall]
        rfl

theorem splitCommas_of_noSeparator {depth : Int} {text : Text} (h : NoSeparator depth text) :
    splitCommas depth text = [text] := by
  obtain ⟨first, others, hrest, hall⟩ := splitCommas_append h []
  cases hrest
  simpa using hall

theorem splitCommas_append_comma {depth : Int} {front : Text} (h : NoSeparator depth front)
    (hdepth : depth + bracketDepth front = 0) (rest : Text) :
    splitCommas depth (front ++ ',' :: rest) = front :: splitCommas 0 rest := by
  obtain ⟨first, others, hrest, hall⟩ := splitCommas_append h (',' :: rest)
  rw [hdepth, splitCommas, if_pos ⟨rfl, rfl⟩] at hrest
  cases hrest
  simpa using hall

theorem splitCommas_eq_singleton_iff {depth : Int} {text : Text} :
    splitCommas depth text = [text] ↔ NoSeparator depth text := by
  refine ⟨fun hsplit => ?_, splitCommas_of_noSeparator⟩
  rcases noSeparator_or_exists depth text with hnone | ⟨front, rest, rfl, hfront, hdepth⟩
  · exact hnone
  · rw [splitCommas_append_comma hfront hdepth] at hsplit
    exact absurd (List.cons.inj hsplit).2 (splitCommas_ne_nil 0 rest)

instance (depth : Int) (text : Text) : Decidable (NoSeparator depth text) :=
  decidable_of_iff _ splitCommas_eq_singleton_iff

/-- There is one first comma that parts selectors. -/
theorem separator_inj {depth : Int} {front front' rest rest' : Text} (h : NoSeparator depth front)
    (hdepth : depth + bracketDepth front = 0) (h' : NoSeparator depth front')
    (hdepth' : depth + bracketDepth front' = 0)
    (heq : front ++ ',' :: rest = front' ++ ',' :: rest') :
    front = front' ∧ rest = rest' := by
  have hsplit := splitCommas_append_comma h hdepth rest
  rw [heq, splitCommas_append_comma h' hdepth'] at hsplit
  obtain rfl := (List.cons.inj hsplit).1
  exact ⟨rfl, (List.cons.inj (List.append_cancel_left heq)).2⟩

/-- Some texts are the selectors of a list: between them stand commas outside brackets, and in none
of them there is such a comma. -/
structure IsSelectorList (selectors : List Text) (list : Text) : Prop where
  ne_nil : selectors ≠ []
  join_eq : Text.join "," selectors = list
  noSeparator : ∀ selector ∈ selectors, NoSeparator 0 selector
  bracketDepth_eq : ∀ selector ∈ selectors.dropLast, bracketDepth selector = 0

theorem isSelectorList_splitCommas (list : Text) : IsSelectorList (splitCommas 0 list) list := by
  induction hsize : list.length using Nat.strongRecOn generalizing list with
  | ind size ih =>
      rcases noSeparator_or_exists 0 list with hnone | ⟨front, rest, rfl, hfront, hdepth⟩
      · rw [splitCommas_of_noSeparator hnone]
        exact ⟨by simp, Text.join_singleton _ _, by simpa using hnone, by simp⟩
      · have hrest := ih rest.length (by simp [← hsize]; omega) rest rfl
        rw [splitCommas_append_comma hfront hdepth]
        refine ⟨by simp, ?_, ?_, ?_⟩
        · rw [Text.join_cons_of_ne_nil _ _ hrest.ne_nil, hrest.join_eq]
          rfl
        · simpa using ⟨hfront, hrest.noSeparator⟩
        · rw [List.dropLast_cons_of_ne_nil hrest.ne_nil]
          simpa using ⟨by simpa using hdepth, hrest.bracketDepth_eq⟩

/-! ## Selectors -/

/-- A selector as it stands in a list: blanks, the text before and the text after the place of the
marker, and blanks. -/
structure Selector where
  lead : Text
  before : Text
  after : Text
  trail : Text

namespace Selector

/-- The text of a selector with the blanks around it. -/
def text (selector : Selector) : Text :=
  selector.lead ++ selector.before ++ selector.after ++ selector.trail

/-- A selector with its marker, without the blanks around it. -/
def marked (mark : Text) (selector : Selector) : Text :=
  selector.before ++ mark ++ selector.after

/-- A text as a selector. -/
def ofText (text : Text) : Selector where
  lead := Text.leadingSpace text
  before := ((Text.seek "::" (Text.trim text)).map Prod.fst).getD (Text.trim text)
  after := ((Text.seek "::" (Text.trim text)).map Prod.snd).getD []
  trail := Text.trailingSpace (Text.trimStart text)

theorem text_ofText (text : Text) : (ofText text).text = text := by
  have htrim : (ofText text).before ++ (ofText text).after = Text.trim text := by
    unfold ofText
    cases hseek : Text.seek "::" (Text.trim text) with
    | none => simp
    | some found => simpa using (Text.seek_eq_some hseek).symm
  unfold Selector.text
  rw [List.append_assoc (ofText text).lead, htrim]
  show Text.leadingSpace text ++ Text.trimEnd (Text.trimStart text) ++ _ = text
  rw [List.append_assoc, ofText, Text.trimEnd_append_trailingSpace,
    Text.leadingSpace_append_trimStart]

theorem fillAll_selectorPieces (mark text : Text) :
    StylePiece.fillAll mark (selectorPieces (Text.trim text)) = (ofText text).marked mark := by
  unfold selectorPieces marked ofText
  cases Text.seek "::" (Text.trim text) <;> simp

theorem fillAll_joinSelectors (mark : Text) (selectors : List Text) :
    StylePiece.fillAll mark (joinSelectors selectors) =
      Text.join ", " (selectors.map fun selector => (ofText selector).marked mark) := by
  induction selectors with
  | nil => rfl
  | cons selector rest ih =>
      cases rest with
      | nil => simp [joinSelectors, fillAll_selectorPieces]
      | cons next others =>
          have hjoin : joinSelectors (selector :: next :: others) =
              selectorPieces (Text.trim selector) ++ .copied ", " ::
                joinSelectors (next :: others) := rfl
          rw [hjoin, StylePiece.fillAll_append, StylePiece.fillAll_copied, ih,
            fillAll_selectorPieces]
          exact (Text.join_cons_cons ..).symm

end Selector

/-! ## Preludes of style rules -/

/-- The prelude of a style rule: blanks, selectors with commas between them, and blanks. -/
structure SelectorList where
  blank : Text
  selectors : List Selector
  gap : Text

namespace SelectorList

/-- The text of a prelude. -/
def text (list : SelectorList) : Text :=
  list.blank ++ Text.join "," (list.selectors.map Selector.text) ++ list.gap

/-- A prelude with a marker in each selector, and with a comma and a blank between selectors. -/
def marked (mark : Text) (list : SelectorList) : Text :=
  list.blank ++ Text.join ", " (list.selectors.map (Selector.marked mark)) ++ list.gap

/-- The parts of a prelude are what they are meant to be.  The blanks around a selector that count
as its own stand next to a comma. -/
structure WellFormed (list : SelectorList) : Prop where
  isSelectorList : IsSelectorList (list.selectors.map Selector.text)
    (Text.join "," (list.selectors.map Selector.text))
  blank : list.blank.all Text.isSpace = true
  gap : list.gap.all Text.isSpace = true
  lead : ∀ selector ∈ list.selectors, selector.lead.all Text.isSpace = true
  trail : ∀ selector ∈ list.selectors, selector.trail.all Text.isSpace = true
  lead_of_first : ∀ selector ∈ list.selectors.head?, selector.lead = []
  trail_of_last : ∀ selector ∈ list.selectors.getLast?, selector.trail = []

/-- A text as the prelude of a style rule. -/
def ofText (prelude : Text) : SelectorList where
  blank := Text.leadingSpace prelude
  selectors := (splitCommas 0 (Text.trimEnd (Text.trimStart prelude))).map Selector.ofText
  gap := Text.trailingSpace (Text.trimStart prelude)

theorem map_text_selectors (prelude : Text) :
    (ofText prelude).selectors.map Selector.text =
      splitCommas 0 (Text.trimEnd (Text.trimStart prelude)) := by
  unfold ofText
  rw [List.map_map]
  exact List.map_id'' Selector.text_ofText _

theorem text_ofText (prelude : Text) : (ofText prelude).text = prelude := by
  unfold text
  rw [map_text_selectors, (isSelectorList_splitCommas _).join_eq]
  unfold ofText
  rw [List.append_assoc, Text.trimEnd_append_trailingSpace, Text.leadingSpace_append_trimStart]

theorem marked_ofText (mark prelude : Text) :
    (ofText prelude).marked mark = Text.leadingSpace prelude ++
      StylePiece.fillAll mark (selectorListPieces (Text.trimStart prelude)) := by
  unfold marked selectorListPieces ofText
  rw [StylePiece.fillAll_append, Selector.fillAll_joinSelectors, List.map_map]
  simp [Function.comp_def]

theorem wellFormed_ofText (prelude : Text) : (ofText prelude).WellFormed where
  isSelectorList := by
    rw [map_text_selectors, (isSelectorList_splitCommas _).join_eq]
    exact isSelectorList_splitCommas _
  blank := Text.all_leadingSpace prelude
  gap := Text.all_trailingSpace _
  lead := by
    intro selector hmem
    obtain ⟨raw, -, rfl⟩ := List.mem_map.mp hmem
    exact Text.all_leadingSpace raw
  trail := by
    intro selector hmem
    obtain ⟨raw, -, rfl⟩ := List.mem_map.mp hmem
    exact Text.all_trailingSpace _
  lead_of_first := by
    intro selector hmem
    obtain ⟨raw, hraw, rfl⟩ := Option.map_eq_some_iff.mp ((List.head?_map ..).symm.trans hmem)
    refine Text.leadingSpace_eq_nil fun c hc => ?_
    have hlist := Text.mem_head?_join "," hraw hc
    rw [(isSelectorList_splitCommas _).join_eq] at hlist
    exact Text.isSpace_of_head?_trimStart (Text.mem_head?_of_trimEnd hlist)
  trail_of_last := by
    intro selector hmem
    obtain ⟨raw, hraw, rfl⟩ := Option.map_eq_some_iff.mp ((List.getLast?_map ..).symm.trans hmem)
    refine Text.trailingSpace_eq_nil fun c hc => ?_
    have hlist := Text.mem_getLast?_join "," hraw (Text.mem_getLast?_of_trimStart hc)
    rw [(isSelectorList_splitCommas _).join_eq] at hlist
    exact Text.isSpace_of_getLast?_trimEnd hlist

end SelectorList

end Scope

end ComponentLoader
