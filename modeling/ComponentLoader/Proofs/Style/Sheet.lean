import ComponentLoader.Proofs.Style.Rule
import ComponentLoader.Proofs.Style.Selector
set_option autoImplicit false

/-!
# What scoping changes (SPEC §4.3)

Scoping puts a marker into each selector and changes nothing else but the blanks next to the
commas of selector lists.  A `Sheet` is a stylesheet taken apart far enough to say this.  It has
two printings, the lexemes it was read from and the scoped text, and they differ in the selector
lists of style rules only.

A rule counts as an at-rule if its prelude begins with `@` behind blanks, and as a style rule
otherwise.  A comment in front of the `@` therefore makes a style rule of it, and commas and
brackets count in comments and strings as elsewhere in a prelude.
-/

namespace ComponentLoader

/-! ## Texts between markers -/

namespace StylePiece

/-- The texts between the slots of some pieces, with what is in front of the first slot and what is
behind the last. -/
def texts : List StylePiece → List Text
  | [] => [[]]
  | slot :: rest => [] :: texts rest
  | copied text :: rest =>
    match texts rest with
    | [] => [text]
    | first :: others => (text ++ first) :: others

theorem texts_ne_nil (pieces : List StylePiece) : texts pieces ≠ [] := by
  unfold texts
  split
  · simp
  · simp
  · split <;> simp

/-- Pieces are filled by joining their texts with the marker. -/
theorem join_texts (mark : Text) (pieces : List StylePiece) :
    Text.join mark (texts pieces) = fillAll mark pieces := by
  induction pieces with
  | nil => rfl
  | cons piece rest ih =>
      obtain ⟨first, others, hrest⟩ := List.exists_cons_of_ne_nil (texts_ne_nil rest)
      rw [hrest] at ih
      cases piece with
      | slot =>
          rw [texts, hrest, Text.join_cons_cons, ih, fillAll_slot, List.nil_append]
      | copied text =>
          rw [texts, hrest, fillAll_copied, ← ih]
          cases others with
          | nil => simp
          | cons next more => simp

theorem flatten_texts (pieces : List StylePiece) : (texts pieces).flatten = fillAll [] pieces := by
  rw [← join_texts, Text.join_nil_glue]

theorem length_texts (pieces : List StylePiece) :
    (texts pieces).length = pieces.count slot + 1 := by
  induction pieces with
  | nil => rfl
  | cons piece rest ih =>
      cases piece with
      | slot => rw [texts, List.length_cons, ih, List.count_cons_self]
      | copied text =>
          obtain ⟨first, others, hrest⟩ := List.exists_cons_of_ne_nil (texts_ne_nil rest)
          rw [List.count_cons_of_ne (by simp), ← ih, texts, hrest]
          rfl

theorem length_fillAll (mark : Text) (pieces : List StylePiece) :
    (fillAll mark pieces).length =
      (fillAll [] pieces).length + pieces.count slot * mark.length := by
  induction pieces with
  | nil => simp
  | cons piece rest ih =>
      cases piece with
      | slot =>
          simp only [fillAll_slot, List.length_append, ih, List.count_cons_self, List.nil_append,
            Nat.succ_mul]
          omega
      | copied text =>
          simp only [fillAll_copied, List.length_append, ih,
            List.count_cons_of_ne (show copied text ≠ slot by simp)]
          omega

end StylePiece

namespace Scope

open Lexeme (plain textOf)

/-! ## Sheets -/

/-- A stylesheet by its statements and rules. -/
inductive Sheet where
  /-- what is left when nothing ends a prelude any more -/
  | rest (lexemes : List Lexeme) (noStop : NoStop lexemes)
  /-- a statement with its semicolon -/
  | statement (prelude : List Lexeme) (noStop : NoStop prelude) (after : Sheet)
  /-- a style rule: its prelude is a list of selectors -/
  | style (prelude : List Lexeme) (noStop : NoStop prelude) (list : SelectorList)
      (wellFormed : list.WellFormed) (text_eq : list.text = textOf prelude)
      (not_at : (Text.trimStart (textOf prelude)).head? ≠ some '@') (block : List Lexeme)
      (balanced : Balanced block) (after : Sheet)
  /-- an at-rule that groups rules -/
  | group (prelude : List Lexeme) (noStop : NoStop prelude) (name : Text)
      (at_name : Text.trimStart (textOf prelude) = '@' :: name) (isGroup : isGroupRule name = true)
      (inner after : Sheet)
  /-- an at-rule of any other name -/
  | other (prelude : List Lexeme) (noStop : NoStop prelude) (name : Text)
      (at_name : Text.trimStart (textOf prelude) = '@' :: name)
      (notGroup : isGroupRule name = false)
      (block : List Lexeme) (balanced : Balanced block) (after : Sheet)

namespace Sheet

/-- The lexemes of a stylesheet. -/
def lexemes : Sheet → List Lexeme
  | rest lexemes _ => lexemes
  | statement prelude _ after => prelude ++ plain ';' :: after.lexemes
  | style prelude _ _ _ _ _ block _ after =>
    prelude ++ plain '{' :: (block ++ plain '}' :: after.lexemes)
  | group prelude _ _ _ _ inner after =>
    prelude ++ plain '{' :: (inner.lexemes ++ plain '}' :: after.lexemes)
  | other prelude _ _ _ _ block _ after =>
    prelude ++ plain '{' :: (block ++ plain '}' :: after.lexemes)

/-- The text of a stylesheet with a marker in each selector. -/
def marked (mark : Text) : Sheet → Text
  | rest lexemes _ => textOf lexemes
  | statement prelude _ after => textOf prelude ++ ';' :: after.marked mark
  | style _ _ list _ _ _ block _ after =>
    list.marked mark ++ '{' :: (textOf block ++ '}' :: after.marked mark)
  | group prelude _ _ _ _ inner after =>
    textOf prelude ++ '{' :: (inner.marked mark ++ '}' :: after.marked mark)
  | other prelude _ _ _ _ block _ after =>
    textOf prelude ++ '{' :: (textOf block ++ '}' :: after.marked mark)

/-- The number of selectors of the style rules at the top and in rules that group. -/
def selectorCount : Sheet → Nat
  | rest _ _ => 0
  | statement _ _ after => after.selectorCount
  | style _ _ list _ _ _ _ _ after => list.selectors.length + after.selectorCount
  | group _ _ _ _ _ inner after => inner.selectorCount + after.selectorCount
  | other _ _ _ _ _ _ _ after => after.selectorCount

end Sheet

/-! ## Selectors and markers -/

theorem Selector.length_marked (mark : Text) (selector : Selector) :
    (selector.marked mark).length = (selector.marked []).length + mark.length := by
  simp only [Selector.marked, List.length_append, List.length_nil]
  omega

theorem SelectorList.length_marked (mark : Text) (list : SelectorList) :
    (list.marked mark).length = (list.marked []).length + list.selectors.length * mark.length := by
  have hjoin (selectors : List Selector) :
      (Text.join ", " (selectors.map (Selector.marked mark))).length =
        (Text.join ", " (selectors.map (Selector.marked []))).length +
          selectors.length * mark.length := by
    induction selectors with
    | nil => simp
    | cons selector others ih =>
        cases others with
        | nil => simp [selector.length_marked mark]
        | cons next more =>
            simp only [List.map_cons, Text.join_cons_cons, List.length_append, List.length_cons,
              selector.length_marked mark, Nat.succ_mul] at ih ⊢
            omega
  simp only [SelectorList.marked, List.length_append, hjoin]
  omega

/-- Every selector makes the text longer by one marker. -/
theorem Sheet.length_marked (mark : Text) (sheet : Sheet) :
    (sheet.marked mark).length = (sheet.marked []).length + sheet.selectorCount * mark.length := by
  induction sheet with
  | rest => simp [marked, selectorCount]
  | statement prelude noStop after ih =>
      simp only [marked, selectorCount, List.length_append, List.length_cons, ih]
      omega
  | style prelude noStop list wellFormed text_eq not_at block balanced after ih =>
      simp only [marked, selectorCount, List.length_append, List.length_cons, ih,
        list.length_marked mark, Nat.add_mul]
      omega
  | group prelude noStop name at_name isGroup inner after ihinner ihafter =>
      simp only [marked, selectorCount, List.length_append, List.length_cons, ihinner, ihafter,
        Nat.add_mul]
      omega
  | other prelude noStop name at_name notGroup block balanced after ih =>
      simp only [marked, selectorCount, List.length_append, List.length_cons, ih]
      omega

/-! ## Reading -/

/-- Lexemes that can be scoped are those of a sheet, and scoping them gives
the text with markers. -/
theorem exists_sheet {lexemes : List Lexeme} (h : Balanced lexemes) :
    ∃ sheet : Sheet, sheet.lexemes = lexemes ∧
      ∀ mark, scopedText mark lexemes = .ok (sheet.marked mark) := by
  induction lexemes using cutInduction with
  | rest lexemes hnone => exact ⟨.rest lexemes hnone, rfl, fun _ => scopedText_of_noStop hnone⟩
  | close prelude after hprelude =>
      obtain ⟨text, htext⟩ := h.exists_scopedText []
      rw [scopedText_close hprelude] at htext
      cases htext
  | unclosed prelude after hprelude hblock =>
      obtain ⟨text, htext⟩ := h.exists_scopedText []
      rw [scopedText_unclosed hprelude hblock] at htext
      cases htext
  | statement prelude after hprelude ih =>
      obtain ⟨sheet, rfl, hsheet⟩ := ih ((balanced_statement_iff hprelude).mp h)
      refine ⟨.statement prelude hprelude sheet, rfl, fun mark => ?_⟩
      rw [scopedText_statement hprelude, hsheet]
      rfl
  | rule prelude body after hprelude hbody ihbody ihafter =>
      obtain ⟨sheet, rfl, hsheet⟩ := ihafter ((balanced_rule_iff hprelude hbody).mp h)
      by_cases hat : ∃ name, Text.trimStart (textOf prelude) = '@' :: name
      · obtain ⟨name, hname⟩ := hat
        cases hgroup : isGroupRule name with
        | true =>
            obtain ⟨inner, hinner, hmarked⟩ := ihbody hbody
            refine ⟨.group prelude hprelude name hname hgroup inner sheet, ?_, fun mark => ?_⟩
            · rw [Sheet.lexemes, hinner]
            · rw [scopedText_rule hprelude hbody, scopedRule_of_group hname hgroup, hmarked, hsheet]
              simp [Except.map, Except.bind, Sheet.marked]
        | false =>
            refine ⟨.other prelude hprelude name hname hgroup body hbody sheet, rfl, fun mark => ?_⟩
            rw [scopedText_rule hprelude hbody, scopedRule_of_other hname hgroup, hsheet]
            simp [Except.map, Except.bind, Sheet.marked]
      · have hhead : (Text.trimStart (textOf prelude)).head? ≠ some '@' := fun hhead =>
          hat (List.head?_eq_some_iff.mp hhead)
        refine ⟨.style prelude hprelude (.ofText (textOf prelude))
          (SelectorList.wellFormed_ofText _)
          (SelectorList.text_ofText _) hhead body hbody sheet, rfl, fun mark => ?_⟩
        rw [scopedText_rule hprelude hbody, scopedRule_of_style hhead, hsheet,
          ← SelectorList.marked_ofText]
        simp [Except.map, Except.bind, Sheet.marked]

/-- Scoping only inserts markers.  There are texts, the same for every token and strategy, between
which the markers stand.  Their number is that of the selectors of the sheet and one more.  One
after the other they are the sheet without markers, in which all is as in the stylesheet except for
the blanks next to the commas that part selectors. -/
theorem scope_inserts_markers {strategy : ScopeStrategy} {token css out : Text}
    (h : scope strategy token css = .ok out) :
    ∃ (sheet : Sheet) (pieces : List Text),
      sheet.lexemes = Lexeme.ofText css ∧
      pieces.length = sheet.selectorCount + 1 ∧
      pieces.flatten = sheet.marked [] ∧
      (∀ mark, Text.join mark pieces = sheet.marked mark) ∧
      ∀ strategy token, scope strategy token css =
        .ok (Text.join (marker strategy token) pieces) := by
  obtain ⟨found, hfound⟩ : ∃ found, slots css = .ok found := by
    unfold scope at h
    cases hslots : slots css with
    | error fault =>
        rw [hslots] at h
        cases h
    | ok found => exact ⟨found, rfl⟩
  obtain ⟨sheet, hlexemes, hsheet⟩ := exists_sheet (isOk_scopedText_iff.mp ⟨out, h⟩)
  have hmarked (mark : Text) : sheet.marked mark = StylePiece.fillAll mark found := by
    have hmark := hsheet mark
    rw [show scopedText mark (Lexeme.ofText css) =
        (slots css).map (StylePiece.fillAll mark) from rfl, hfound] at hmark
    exact (Except.ok.inj hmark).symm
  -- with a marker of one character the text grows by the number of slots
  have hcount : found.count .slot = sheet.selectorCount := by
    have hlong := sheet.length_marked ['.']
    rw [hmarked, hmarked, StylePiece.length_fillAll] at hlong
    simpa using hlong
  refine ⟨sheet, StylePiece.texts found, hlexemes, ?_, ?_, fun mark => ?_, fun strategy token => ?_⟩
  · rw [StylePiece.length_texts, hcount]
  · rw [StylePiece.flatten_texts, hmarked]
  · rw [StylePiece.join_texts, hmarked]
  · rw [StylePiece.join_texts, scope, hfound]
    rfl

/-- A list of two selectors in a group, a page rule and a statement behind them. -/
theorem scope_inserts_markers_of_group :
    let css : Text := "@media x\x7ba , b::c\x7bd:e,f\x7d\x7d@page\x7bg,h\x7bi:j\x7d\x7dk , l;"
    scope .byClass "s1" css =
        .ok ("@media x\x7ba.s1, b.s1::c\x7bd:e,f\x7d\x7d@page\x7bg,h\x7bi:j\x7d\x7dk , l;" : Text) ∧
      ∃ (sheet : Sheet) (pieces : List Text),
        sheet.lexemes = Lexeme.ofText css ∧
        pieces.length = sheet.selectorCount + 1 ∧
        pieces.flatten = sheet.marked [] ∧
        (∀ mark, Text.join mark pieces = sheet.marked mark) ∧
        ∀ strategy token,
          scope strategy token css = .ok (Text.join (marker strategy token) pieces) := by
  intro css
  have hout : scope .byClass "s1" css =
      .ok ("@media x\x7ba.s1, b.s1::c\x7bd:e,f\x7d\x7d@page\x7bg,h\x7bi:j\x7d\x7dk , l;" :
        Text) := by
    decide +kernel
  exact ⟨hout, scope_inserts_markers hout⟩

end Scope

end ComponentLoader
