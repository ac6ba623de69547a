import ComponentLoader.Proofs.Style.Composition
import ComponentLoader.Proofs.Style.Sheet
set_option autoImplicit false

/-!
# Where a part of a stylesheet is found again (SPEC §4.3)

A scoped stylesheet has the same characters as the stylesheet, but for blanks, and markers between
them.  So a part of the stylesheet has one place in it, behind as many characters as before.
Whether the part is there as it was can be read off the pieces that are filled, since two markers
that begin differently tell a marker from a text (`StylePiece.eq_of_filled_eq`).
-/

namespace ComponentLoader

/-- The characters of a text that are not blank. -/
def Text.withoutSpace (text : Text) : Text :=
  text.filter fun c => !Text.isSpace c

namespace Text

@[simp]
theorem withoutSpace_append (a b : Text) :
    withoutSpace (a ++ b) = withoutSpace a ++ withoutSpace b :=
  List.filter_append ..

theorem withoutSpace_cons {c : Char} (h : isSpace c = false) (rest : Text) :
    withoutSpace (c :: rest) = c :: withoutSpace rest :=
  List.filter_cons_of_pos (by simp [h])

theorem withoutSpace_eq_nil {text : Text} (h : text.all isSpace = true) :
    withoutSpace text = [] := by
  unfold withoutSpace
  rw [List.filter_eq_nil_iff]
  intro c hmem
  simp [List.all_eq_true.mp h c hmem]

@[simp]
theorem withoutSpace_trimStart (text : Text) :
    withoutSpace (trimStart text) = withoutSpace text := by
  conv => rhs; rw [← leadingSpace_append_trimStart text, withoutSpace_append,
    withoutSpace_eq_nil (all_leadingSpace text), List.nil_append]

@[simp]
theorem withoutSpace_trimEnd (text : Text) : withoutSpace (trimEnd text) = withoutSpace text := by
  conv => rhs; rw [← trimEnd_append_trailingSpace text, withoutSpace_append,
    withoutSpace_eq_nil (all_trailingSpace text), List.append_nil]

@[simp]
theorem withoutSpace_trim (text : Text) : withoutSpace (trim text) = withoutSpace text := by
  rw [trim, withoutSpace_trimEnd, withoutSpace_trimStart]

end Text

/-! ## Characters and markers -/

namespace StylePiece

/-- The characters of some pieces, and none in the place of every marker. -/
def places (pieces : List StylePiece) : List (Option Char) :=
  pieces.flatMap fun piece =>
    match piece with
    | copied text => text.map some
    | slot => [none]

@[simp]
theorem places_nil : places [] = [] := rfl

@[simp]
theorem places_copied (text : Text) (rest : List StylePiece) :
    places (copied text :: rest) = text.map some ++ places rest := rfl

@[simp]
theorem places_slot (rest : List StylePiece) : places (slot :: rest) = none :: places rest := rfl

@[simp]
theorem places_append (a b : List StylePiece) : places (a ++ b) = places a ++ places b := by
  simp [places]

/-- The text of some places with the marker filled in. -/
def filled (mark : Text) (places : List (Option Char)) : Text :=
  places.flatMap fun place =>
    match place with
    | some c => [c]
    | none => mark

theorem filled_cons_some (mark : Text) (c : Char) (rest : List (Option Char)) :
    filled mark (some c :: rest) = c :: filled mark rest := rfl

theorem filled_cons_none (mark : Text) (rest : List (Option Char)) :
    filled mark (none :: rest) = mark ++ filled mark rest := rfl

theorem filled_append (mark : Text) (a b : List (Option Char)) :
    filled mark (a ++ b) = filled mark a ++ filled mark b := by
  simp [filled]

theorem filled_map_some (mark text : Text) : filled mark (text.map some) = text := by
  induction text with
  | nil => rfl
  | cons c rest ih => rw [List.map_cons, filled_cons_some, ih]

theorem filled_places (mark : Text) (pieces : List StylePiece) :
    filled mark (places pieces) = fillAll mark pieces := by
  induction pieces with
  | nil => rfl
  | cons piece rest ih =>
      cases piece with
      | copied text => rw [places_copied, filled_append, filled_map_some, ih, fillAll_copied]
      | slot => rw [places_slot, filled_cons_none, ih, fillAll_slot]

theorem exists_places_eq (all : List (Option Char)) : ∃ pieces, places pieces = all := by
  induction all with
  | nil => exact ⟨[], rfl⟩
  | cons place rest ih =>
      obtain ⟨pieces, rfl⟩ := ih
      cases place with
      | some c => exact ⟨copied [c] :: pieces, rfl⟩
      | none => exact ⟨slot :: pieces, rfl⟩

/-- Two markers that begin differently tell where markers are. -/
theorem eq_of_filled_eq {c d : Char} (hne : c ≠ d) {mark mark' : Text} {a b : List (Option Char)}
    (h : filled (c :: mark) a = filled (c :: mark) b)
    (h' : filled (d :: mark') a = filled (d :: mark') b) : a = b := by
  induction a generalizing b with
  | nil =>
      cases b with
      | nil => rfl
      | cons place others => cases place <;> cases h
  | cons place rest ih =>
      cases b with
      | nil => cases place <;> cases h
      | cons place' others =>
          cases place with
          | none =>
              cases place' with
              | none => rw [ih (List.append_cancel_left h) (List.append_cancel_left h')]
              | some e => exact absurd ((List.cons.inj h).1.trans (List.cons.inj h').1.symm) hne
          | some e =>
              cases place' with
              | none => exact absurd ((List.cons.inj h).1.symm.trans (List.cons.inj h').1) hne
              | some e' => rw [(List.cons.inj h).1, ih (List.cons.inj h).2 (List.cons.inj h').2]

/-- A character that is not blank has one place behind those that are not blank. -/
theorem eq_of_append_some_eq {a a' b b' : List (Option Char)} {c c' : Char}
    (h : a ++ some c :: b = a' ++ some c' :: b') (hc : Text.isSpace c = false)
    (hc' : Text.isSpace c' = false)
    (hsame : Text.withoutSpace (filled [] a) = Text.withoutSpace (filled [] a')) : a = a' := by
  -- the longer of the two has the other character as well
  have hlonger {a more : List (Option Char)} {c : Char} (hc : Text.isSpace c = false) :
      Text.withoutSpace (filled [] a) ≠ Text.withoutSpace (filled [] (a ++ some c :: more)) := by
    intro heq
    rw [filled_append, filled_cons_some, Text.withoutSpace_append, Text.withoutSpace_cons hc] at heq
    have hlength := congrArg List.length heq
    simp at hlength
  rcases List.append_eq_append_iff.mp h with ⟨more, rfl, hmore⟩ | ⟨more, rfl, hmore⟩
  · cases more with
    | nil => simp
    | cons place others =>
        obtain ⟨rfl, -⟩ := List.cons.inj hmore
        exact absurd hsame (hlonger hc)
  · cases more with
    | nil => simp
    | cons place others =>
        obtain ⟨rfl, -⟩ := List.cons.inj hmore
        exact absurd hsame.symm (hlonger hc')

end StylePiece

namespace Scope

open Lexeme (plain textOf quoted)
open StylePiece (fillAll places filled)

/-! ## Kept strings -/

/-- The string that stands behind `front` in a stylesheet is found in every scoped stylesheet as it
was, behind the same characters but for blanks and markers, and without a marker in it. -/
def KeepsString (css front string : Text) : Prop :=
  ∃ before after : List StylePiece,
    Text.withoutSpace (fillAll [] before) = Text.withoutSpace front ∧
      ∀ strategy token, scope strategy token css =
        .ok (fillAll (marker strategy token) before ++
          (string ++ fillAll (marker strategy token) after))

/-- A string is kept exactly if the places begin with it where it is to be found. -/
theorem keepsString_iff {css front : Text} {before after : List StylePiece}
    (hscope : ∀ strategy token, scope strategy token css =
      .ok (fillAll (marker strategy token) (before ++ after)))
    (hfront : Text.withoutSpace (fillAll [] before) = Text.withoutSpace front) {c : Char}
    {rest : Text} (hc : Text.isSpace c = false) {more : List (Option Char)}
    (hafter : places after = some c :: more) :
    KeepsString css front (c :: rest) ↔ (c :: rest).map some <+: places after := by
  constructor
  · rintro ⟨before', after', hfront', hscope'⟩
    have hfilled (strategy : ScopeStrategy) :
        filled (marker strategy []) (places before ++ places after) =
          filled (marker strategy [])
            (places before' ++ ((c :: rest).map some ++ places after')) := by
      have hsame := Except.ok.inj ((hscope strategy []).symm.trans (hscope' strategy []))
      simpa only [StylePiece.filled_append, StylePiece.filled_places, StylePiece.filled_map_some,
        StylePiece.fillAll_append] using hsame
    have hplaces : places before ++ places after =
        places before' ++ ((c :: rest).map some ++ places after') :=
      StylePiece.eq_of_filled_eq (by decide) (hfilled .byClass) (hfilled .byAttribute)
    have hbefore : places before = places before' := by
      rw [hafter, List.map_cons, List.cons_append] at hplaces
      refine StylePiece.eq_of_append_some_eq hplaces hc hc ?_
      rw [StylePiece.filled_places, StylePiece.filled_places, hfront, hfront']
    rw [hbefore, List.append_cancel_left_eq] at hplaces
    exact ⟨_, hplaces.symm⟩
  · rintro ⟨tail, htail⟩
    obtain ⟨after', rfl⟩ := StylePiece.exists_places_eq tail
    refine ⟨before, after', hfront, fun strategy token => ?_⟩
    rw [hscope, StylePiece.fillAll_append, ← StylePiece.filled_places _ after, ← htail,
      StylePiece.filled_append, StylePiece.filled_map_some, StylePiece.filled_places]

/-! ## Scoping changes blanks only -/

theorem SelectorList.withoutSpace_marked {list : SelectorList} (h : list.WellFormed) :
    Text.withoutSpace (list.marked []) = Text.withoutSpace list.text := by
  have hselector (selector : Selector) (hmem : selector ∈ list.selectors) :
      Text.withoutSpace (selector.marked []) = Text.withoutSpace selector.text := by
    simp [Selector.marked, Selector.text, Text.withoutSpace_eq_nil (h.lead selector hmem),
      Text.withoutSpace_eq_nil (h.trail selector hmem)]
  have hjoin (selectors : List Selector)
      (hsub : ∀ selector ∈ selectors, selector ∈ list.selectors) :
      Text.withoutSpace (Text.join ", " (selectors.map (Selector.marked []))) =
        Text.withoutSpace (Text.join "," (selectors.map Selector.text)) := by
    induction selectors with
    | nil => rfl
    | cons selector others ih =>
        have hfirst := hselector selector (hsub selector List.mem_cons_self)
        have hrest := ih fun other hmem => hsub other (List.mem_cons_of_mem _ hmem)
        cases others with
        | nil => simpa using hfirst
        | cons next more =>
            simp only [List.map_cons, Text.join_cons_cons, Text.withoutSpace_append] at hrest ⊢
            rw [hfirst, hrest]
            rfl
  simp only [marked, text, Text.withoutSpace_append, hjoin list.selectors fun _ hmem => hmem]

theorem Sheet.withoutSpace_marked (sheet : Sheet) :
    Text.withoutSpace (sheet.marked []) = Text.withoutSpace (textOf sheet.lexemes) := by
  have hblock {body body' after after' : Text}
      (hbody : Text.withoutSpace body = Text.withoutSpace body')
      (hafter : Text.withoutSpace after = Text.withoutSpace after') :
      Text.withoutSpace ('{' :: (body ++ '}' :: after)) =
        Text.withoutSpace ('{' :: (body' ++ '}' :: after')) := by
    show Text.withoutSpace (['{'] ++ (body ++ (['}'] ++ after))) =
      Text.withoutSpace (['{'] ++ (body' ++ (['}'] ++ after')))
    simp only [Text.withoutSpace_append, hbody, hafter]
  have htext (body after : List Lexeme) : textOf (plain '{' :: (body ++ plain '}' :: after)) =
      '{' :: (textOf body ++ '}' :: textOf after) := by
    rw [Lexeme.textOf_cons, Lexeme.textOf_append, Lexeme.textOf_cons]
    rfl
  induction sheet with
  | rest lexemes noStop => rfl
  | statement prelude noStop after ih =>
      show _ = Text.withoutSpace (textOf (prelude ++ ([plain ';'] ++ after.lexemes)))
      show Text.withoutSpace (textOf prelude ++ ([';'] ++ after.marked [])) = _
      simp only [Lexeme.textOf_append, Text.withoutSpace_append, ih]
      rfl
  | style prelude noStop list wellFormed text_eq not_at block balanced after ih =>
      rw [marked, lexemes, Lexeme.textOf_append, htext, Text.withoutSpace_append,
        Text.withoutSpace_append, list.withoutSpace_marked wellFormed, text_eq, hblock rfl ih]
  | group prelude noStop name at_name isGroup inner after ihinner ihafter =>
      rw [marked, lexemes, Lexeme.textOf_append, htext, Text.withoutSpace_append,
        Text.withoutSpace_append, hblock ihinner ihafter]
  | other prelude noStop name at_name notGroup block balanced after ih =>
      rw [marked, lexemes, Lexeme.textOf_append, htext, Text.withoutSpace_append,
        Text.withoutSpace_append, hblock rfl ih]

/-- Without markers, a scoped text has the characters of its stylesheet but for blanks. -/
theorem Balanced.exists_pieces {lexemes : List Lexeme} (h : Balanced lexemes) :
    ∃ pieces, (∀ mark, scopedText mark lexemes = .ok (fillAll mark pieces)) ∧
      Text.withoutSpace (fillAll [] pieces) = Text.withoutSpace (textOf lexemes) := by
  obtain ⟨sheet, rfl, hsheet⟩ := exists_sheet h
  have hmarked := hsheet []
  unfold scopedText at hmarked ⊢
  cases hslots : slotsOf sheet.lexemes with
  | error fault =>
      rw [hslots] at hmarked
      cases hmarked
  | ok pieces =>
      rw [hslots] at hmarked
      refine ⟨pieces, fun mark => rfl, ?_⟩
      rw [← sheet.withoutSpace_marked, ← Except.ok.inj hmarked]

/-! ## Strings in selector lists -/

/-- A string stands in the prelude of a style rule that is scoped, behind the lexemes `inFront` of
the prelude and `front` of the stylesheet. -/
inductive InSelectors (string : Text) : (front inFront lexemes : List Lexeme) → Prop where
  /-- in the first rule -/
  | here {inFront behind block after : List Lexeme}
      (noStop : NoStop (inFront ++ quoted string :: behind))
      (not_at : (Text.trimStart (textOf (inFront ++ quoted string :: behind))).head? ≠ some '@')
      (balanced : Balanced block) :
      InSelectors string inFront inFront
        (inFront ++ quoted string :: behind ++ plain '{' :: (block ++ plain '}' :: after))
  /-- behind rules and statements -/
  | behind {first front inFront lexemes : List Lexeme} (constructs : Constructs first)
      (stands : InSelectors string front inFront lexemes) :
      InSelectors string (first ++ front) inFront (first ++ lexemes)
  /-- in the block of a rule that groups rules -/
  | inGroup {prelude front inFront block after : List Lexeme} {name : Text}
      (noStop : NoStop prelude) (at_name : Text.trimStart (textOf prelude) = '@' :: name)
      (isGroup : isGroupRule name = true) (balanced : Balanced block)
      (stands : InSelectors string front inFront block) :
      InSelectors string (prelude ++ plain '{' :: front) inFront
        (prelude ++ plain '{' :: (block ++ plain '}' :: after))

/-- What is around the selector list of the string is scoped by itself. -/
theorem InSelectors.exists_pieces {string : Text} {front inFront lexemes : List Lexeme}
    (h : InSelectors string front inFront lexemes) (hbalanced : Balanced lexemes) :
    ∃ before after behind, quoted string ∈ lexemes ∧
      (∀ mark, scopedText mark lexemes = .ok (fillAll mark before ++
        ((SelectorList.ofText (textOf inFront ++ (string ++ behind))).marked mark ++
          fillAll mark after))) ∧
      Text.withoutSpace (fillAll [] before) ++ Text.withoutSpace (textOf inFront) =
        Text.withoutSpace (textOf front) := by
  induction h with
  | @here inFront behind block after noStop not_at balanced =>
      obtain ⟨others, hothers, -⟩ :=
        ((balanced_rule_iff noStop balanced).mp hbalanced).exists_pieces
      refine ⟨[], .copied ('{' :: (textOf block ++ ['}'])) :: others, textOf behind, by simp,
        fun mark => ?_, rfl⟩
      have hprelude : textOf (inFront ++ quoted string :: behind) =
          textOf inFront ++ (string ++ textOf behind) := by
        rw [Lexeme.textOf_append, Lexeme.textOf_cons]
        rfl
      rw [scopedText_rule noStop balanced, scopedRule_of_style not_at, hothers,
        ← SelectorList.marked_ofText, hprelude]
      simp [Except.map, Except.bind]
  | @behind first front inFront lexemes constructs stands ih =>
      have hfirst : Balanced first := by
        have hnil : Balanced [] := rfl
        simpa using (constructs.balanced_append_iff []).mpr hnil
      have hrest := (constructs.balanced_append_iff lexemes).mp hbalanced
      obtain ⟨pieces, hpieces, hsame⟩ := hfirst.exists_pieces
      obtain ⟨before, after, behind, hmem, htext, hfront⟩ := ih hrest
      refine ⟨pieces ++ before, after, behind, List.mem_append_right _ hmem, fun mark => ?_, ?_⟩
      · rw [scopedText_append mark constructs, hpieces, htext, StylePiece.fillAll_append]
        simp [Except.map, Except.bind]
      · rw [StylePiece.fillAll_append, Text.withoutSpace_append, hsame, List.append_assoc, hfront,
          Lexeme.textOf_append, Text.withoutSpace_append]
  | @inGroup prelude front inFront block after name noStop at_name isGroup balanced stands ih =>
      obtain ⟨others, hothers, -⟩ :=
        ((balanced_rule_iff noStop balanced).mp hbalanced).exists_pieces
      obtain ⟨pre, post, behind, hmem, htext, hfront⟩ := ih balanced
      refine ⟨.copied (textOf prelude ++ ['{']) :: pre, post ++ .copied ['}'] :: others, behind,
        by simp [hmem], fun mark => ?_, ?_⟩
      · rw [scopedText_rule noStop balanced, scopedRule_of_group at_name isGroup, htext, hothers]
        simp [Except.map, Except.bind]
      · have hopen : textOf (prelude ++ plain '{' :: front) =
            textOf prelude ++ ['{'] ++ textOf front := by
          rw [Lexeme.textOf_append, Lexeme.textOf_cons, List.append_assoc]
          rfl
        rw [StylePiece.fillAll_copied, Text.withoutSpace_append, List.append_assoc, hfront, hopen,
          ← Text.withoutSpace_append]

end Scope

end ComponentLoader
