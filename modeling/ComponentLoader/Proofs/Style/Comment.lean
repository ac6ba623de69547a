import ComponentLoader.Proofs.Style.Composition
import ComponentLoader.Proofs.Style.Selector
import ComponentLoader.Proofs.Text.Seek
set_option autoImplicit false

/-!
# Comments between rules (SPEC §4.3)

A comment is a lexeme of its own, so its braces and semicolons mean nothing.  But a comment in
front of a rule is a part of the prelude of the rule, and a prelude is read as a text: what is
looked for in it, the `@` of an at-rule, commas, brackets and `::`, is looked for in the
comment too.  `InertBefore` says when this does no harm, and `comment_between_iff` that it does
harm in all other cases.

In front of a statement, and behind the last rule, no comment does any harm.
-/

namespace ComponentLoader

/-! ## Comments as lexemes -/

/-- A text that begins as a comment and ends where a comment first can. -/
def IsComment (text : Text) : Prop :=
  ∃ body : Text, ¬("*/".toList <:+: body) ∧ text = "/*" ++ (body ++ "*/")

namespace Lexeme

theorem commentRest?_of_body {body : Text} (h : ¬("*/".toList <:+: body)) (rest : Text) :
    commentRest? (body ++ '*' :: '/' :: rest) = some (body ++ ['*', '/'], rest) := by
  induction body with
  | nil => rfl
  | cons c body ih =>
      rw [List.infix_cons_iff, not_or] at h
      have hrest := ih h.2
      cases body with
      | nil =>
          have hend : ¬(c = '*' ∧ '*' = '/') := fun hend => absurd hend.2 (by decide)
          rw [List.nil_append] at hrest
          rw [List.singleton_append, commentRest?, if_neg hend, hrest]
          rfl
      | cons d others =>
          have hend : ¬(c = '*' ∧ d = '/') := by
            rintro ⟨rfl, rfl⟩
            exact h.1 ⟨others, rfl⟩
          rw [List.cons_append, List.cons_append, commentRest?, if_neg hend, ← List.cons_append,
            hrest]
          rfl

theorem ofText_append_of_comment {comment : Text} (h : IsComment comment) (rest : Text) :
    ofText (comment ++ rest) = Lexeme.comment comment :: ofText rest := by
  obtain ⟨body, hbody, rfl⟩ := h
  have htext : "/*" ++ (body ++ "*/") ++ rest = '/' :: '*' :: (body ++ '*' :: '/' :: rest) := by
    simp
  rw [htext, ofText, first_of_comment (commentRest?_of_body hbody rest)]
  rfl

end Lexeme

theorem IsComment.head? {comment : Text} (h : IsComment comment) : comment.head? = some '/' := by
  obtain ⟨body, -, rfl⟩ := h
  rfl

theorem IsComment.getLast? {comment : Text} (h : IsComment comment) :
    comment.getLast? = some '/' := by
  obtain ⟨body, -, rfl⟩ := h
  rw [← List.append_assoc, List.getLast?_append]
  rfl

/-- A comment does not end in a blank. -/
theorem IsComment.isSpace_last {comment : Text} (h : IsComment comment) :
    ∀ c ∈ comment.getLast?, Text.isSpace c = false := by
  rw [h.getLast?]
  rintro c ⟨⟩
  decide

namespace Scope

open Lexeme (plain textOf)

variable {mark : Text}

/-! ## Markers in a text -/

/-- A marker begins with a character that neither ends a selector nor begins a pseudo-element. -/
def IsMarker (mark : Text) : Prop :=
  ∃ c rest, mark = c :: rest ∧ (c = '.' ∨ c = '[')

theorem isMarker_marker (strategy : ScopeStrategy) (token : Text) :
    IsMarker (marker strategy token) := by
  cases strategy with
  | byClass => exact ⟨'.', _, rfl, Or.inl rfl⟩
  | byAttribute => exact ⟨'[', _, rfl, Or.inr rfl⟩

theorem IsMarker.append_ne {c : Char} (hmark : IsMarker mark) (hc : c ≠ '.' ∧ c ≠ '[')
    (more rest : Text) : mark ++ more ≠ c :: rest := by
  obtain ⟨d, others, rfl, hd⟩ := hmark
  intro heq
  cases heq
  rcases hd with rfl | rfl
  · exact hc.1 rfl
  · exact hc.2 rfl

/-- A selector gets its marker before a character that the marker does not begin with. -/
theorem fillAll_selectorPieces_ne (hmark : IsMarker mark) (selector : Text) {c : Char}
    (hc : c ≠ '.' ∧ c ≠ '[') (more rest : Text) :
    StylePiece.fillAll mark (selectorPieces (Text.trimEnd selector)) ++ more ≠
      selector ++ c :: rest := by
  have hwhole := Text.trimEnd_append_trailingSpace selector
  have hnext : ∃ d others, Text.trailingSpace selector ++ c :: rest = d :: others ∧
      d ≠ '.' ∧ d ≠ '[' := by
    cases hblank : Text.trailingSpace selector with
    | nil => exact ⟨c, rest, rfl, hc⟩
    | cons d blanks =>
        have hd := Text.all_trailingSpace selector
        rw [hblank, List.all_cons, Bool.and_eq_true] at hd
        refine ⟨d, blanks ++ c :: rest, rfl, ?_, ?_⟩ <;> rintro rfl <;>
          exact absurd hd.1 (by decide)
  intro heq
  rw [← hwhole, List.append_assoc, hwhole] at heq
  unfold selectorPieces at heq
  cases hseek : Text.seek "::" (Text.trimEnd selector) with
  | some found =>
      obtain ⟨before, found⟩ := found
      obtain ⟨others, rfl⟩ := Text.isPrefix_of_seek hseek
      rw [hseek, Text.seek_eq_some hseek] at heq
      simp only [StylePiece.fillAll_copied, StylePiece.fillAll_slot, List.append_assoc,
        List.append_cancel_left_eq] at heq
      exact hmark.append_ne (c := ':') (by decide) _ _ heq
  | none =>
      obtain ⟨d, others, hd, hne⟩ := hnext
      rw [hseek, hd] at heq
      simp only [StylePiece.fillAll_copied, StylePiece.fillAll_slot, List.append_assoc,
        List.append_cancel_left_eq] at heq
      exact hmark.append_ne hne _ _ heq

/-- A text without a pseudo-element in front of a selector stays in front of it. -/
theorem fillAll_selectorPieces_append {front : Text} (hpseudo : ¬("::".toList <:+: front))
    (hlast : ∀ c ∈ front.getLast?, c ≠ ':') (selector : Text) :
    StylePiece.fillAll mark (selectorPieces (front ++ selector)) =
      front ++ StylePiece.fillAll mark (selectorPieces selector) := by
  have hcolon : ∀ c ∈ front.getLast?, c ∉ "::".toList := fun c hc => by simpa using hlast c hc
  unfold selectorPieces
  rw [Text.seek_append_of_not_infix hpseudo hcolon]
  cases Text.seek "::" selector <;> simp

/-! ## Preludes behind a comment -/

/-- What becomes of a prelude, without the text in front of it, if `depth` brackets are left open by
that text.  Blanks between the text and the first selector stay. -/
def markedBehind (mark : Text) (depth : Int) (prelude : Text) : Text :=
  match splitCommas depth (Text.trimEnd prelude) with
  | [] => Text.trailingSpace prelude
  | first :: others =>
    Text.join ", " (StylePiece.fillAll mark (selectorPieces (Text.trimEnd first)) ::
      others.map fun selector => (Selector.ofText selector).marked mark) ++
      Text.trailingSpace prelude

variable {comment : Text}

/-- The first selector of a prelude with a comment in front of it begins with the comment. -/
theorem head?_first_of_comment (hcomment : IsComment comment) {text first : Text}
    {others : List Text}
    (hsplit : splitCommas 0 (comment ++ text) = first :: others) : first.head? = some '/' := by
  obtain ⟨rest, rfl⟩ := List.head?_eq_some_iff.mp hcomment.head?
  obtain ⟨inside, more, hall⟩ := exists_splitCommas_cons (by decide : ¬('/' = ',' ∧ (0 : Int) = 0))
    (rest ++ text)
  rw [List.cons_append, hall] at hsplit
  cases hsplit
  rfl

/-- What becomes of a prelude with a comment in front of it. -/
theorem marked_comment_append (hcomment : IsComment comment) {first prelude : Text}
    {others : List Text}
    (hsplit : splitCommas 0 (comment ++ Text.trimEnd prelude) = first :: others) :
    (SelectorList.ofText (comment ++ prelude)).marked mark =
      Text.join ", " (StylePiece.fillAll mark (selectorPieces (Text.trimEnd first)) ::
        others.map fun selector => (Selector.ofText selector).marked mark) ++
          Text.trailingSpace prelude := by
  have hslash (text : Text) (h : text.head? = some '/') :
      Text.leadingSpace text = [] ∧ Text.trimStart text = text := by
    have hblank : ∀ c ∈ text.head?, Text.isSpace c = false := by
      rw [h]
      rintro c ⟨⟩
      decide
    exact ⟨Text.leadingSpace_eq_nil hblank, Text.trimStart_eq_self hblank⟩
  have hprelude := hslash (comment ++ prelude) (by
    rw [List.head?_append, hcomment.head?]
    rfl)
  have hfirst := Selector.fillAll_selectorPieces mark first
  rw [Text.trim, (hslash first (head?_first_of_comment hcomment hsplit)).2] at hfirst
  rw [hfirst]
  unfold SelectorList.marked SelectorList.ofText
  rw [hprelude.1, hprelude.2, Text.trimEnd_append hcomment.isSpace_last,
    Text.trailingSpace_append hcomment.isSpace_last, hsplit, List.map_map]
  rfl

/-- A comment with a comma that parts selectors does not stay as it is. -/
theorem marked_comment_append_ne_of_separator (hmark : IsMarker mark) (hcomment : IsComment comment)
    (hsep : ¬NoSeparator 0 comment) (prelude more rest : Text) :
    (SelectorList.ofText (comment ++ prelude)).marked mark ++ more ≠ comment ++ rest := by
  obtain hnone | ⟨front, after, rfl, hfront, hdepth⟩ := noSeparator_or_exists 0 comment
  · exact absurd hnone hsep
  have hsplit : splitCommas 0 (front ++ ',' :: after ++ Text.trimEnd prelude) =
      front :: splitCommas 0 (after ++ Text.trimEnd prelude) := by
    rw [List.append_assoc, List.cons_append, splitCommas_append_comma hfront hdepth]
  rw [marked_comment_append hcomment hsplit, ← List.append_nil (StylePiece.fillAll ..),
    Text.join_append_cons, List.append_assoc, List.append_assoc, List.append_assoc,
    List.cons_append]
  exact fillAll_selectorPieces_ne hmark front (by decide) _ _

/-- A comment with a pseudo-element does not stay as it is. -/
theorem marked_comment_append_ne_of_pseudo (hmark : IsMarker mark) (hcomment : IsComment comment)
    (hsep : NoSeparator 0 comment) (hpseudo : "::".toList <:+: comment) (prelude more rest : Text) :
    (SelectorList.ofText (comment ++ prelude)).marked mark ++ more ≠ comment ++ rest := by
  obtain ⟨first, others, -, hsplit⟩ := splitCommas_append hsep (Text.trimEnd prelude)
  rw [marked_comment_append hcomment hsplit, Text.trimEnd_append hcomment.isSpace_last]
  cases hseek : Text.seek "::" comment with
  | none => exact absurd hpseudo (Text.seek_eq_none_iff.mp hseek)
  | some found =>
      obtain ⟨before, found⟩ := found
      obtain ⟨after, rfl⟩ := Text.isPrefix_of_seek hseek
      unfold selectorPieces
      rw [Text.seek_append_of_eq_some hseek]
      intro heq
      rw [Text.seek_eq_some hseek] at heq
      simp only [StylePiece.fillAll_copied, StylePiece.fillAll_slot, Text.join_append_cons,
        List.append_assoc, List.append_cancel_left_eq] at heq
      exact hmark.append_ne (c := ':') (by decide) _ _ heq

/-- Any other comment stays as it is, and what stands behind it is read behind its brackets. -/
theorem marked_comment_append_of_noSeparator (hcomment : IsComment comment)
    (hsep : NoSeparator 0 comment) (hpseudo : ¬("::".toList <:+: comment)) (prelude : Text) :
    (SelectorList.ofText (comment ++ prelude)).marked mark =
      comment ++ markedBehind mark (bracketDepth comment) prelude := by
  obtain ⟨first, others, hfirst, hsplit⟩ := splitCommas_append hsep (Text.trimEnd prelude)
  rw [Int.zero_add] at hfirst
  have hlast : ∀ c ∈ comment.getLast?, c ≠ ':' := by
    rw [hcomment.getLast?]
    rintro c ⟨⟩
    decide
  rw [marked_comment_append hcomment hsplit, Text.trimEnd_append hcomment.isSpace_last,
    fillAll_selectorPieces_append hpseudo hlast, Text.join_append_cons, markedBehind, hfirst,
    List.append_assoc]

theorem marked_comment_append_eq_iff (hmark : IsMarker mark) (hcomment : IsComment comment)
    (prelude more rest : Text) :
    (SelectorList.ofText (comment ++ prelude)).marked mark ++ more = comment ++ rest ↔
      NoSeparator 0 comment ∧ ¬("::".toList <:+: comment) ∧
        markedBehind mark (bracketDepth comment) prelude ++ more = rest := by
  by_cases hsep : NoSeparator 0 comment
  · by_cases hpseudo : "::".toList <:+: comment
    · exact iff_of_false (marked_comment_append_ne_of_pseudo hmark hcomment hsep hpseudo _ _ _)
        fun hall => hall.2.1 hpseudo
    · rw [marked_comment_append_of_noSeparator hcomment hsep hpseudo, List.append_assoc,
        List.append_cancel_left_eq]
      exact ⟨fun heq => ⟨hsep, hpseudo, heq⟩, fun hall => hall.2.2⟩
  · exact iff_of_false (marked_comment_append_ne_of_separator hmark hcomment hsep _ _ _)
      fun hall => hsep hall.1

/-- A prelude with markers is not the beginning of the rule that it is the prelude of. -/
theorem markedBehind_ne (hmark : IsMarker mark) (depth : Int) (prelude more rest : Text) :
    markedBehind mark depth prelude ++ more ≠ prelude ++ '{' :: rest := by
  unfold markedBehind
  rcases noSeparator_or_exists depth (Text.trimEnd prelude) with
    hnone | ⟨front, after, heq, hfront, hdepth⟩
  · rw [splitCommas_of_noSeparator hnone]
    simp only [List.map_nil, Text.join_singleton, Text.trimEnd_trimEnd, List.append_assoc]
    exact fillAll_selectorPieces_ne hmark prelude (by decide) _ _
  · have hwhole := Text.trimEnd_append_trailingSpace prelude
    rw [heq, splitCommas_append_comma hfront hdepth]
    simp only
    rw [← List.append_nil (StylePiece.fillAll ..), Text.join_append_cons, List.append_assoc,
      List.append_assoc]
    conv => rhs; rw [← hwhole, heq, List.append_assoc, List.append_assoc, List.cons_append]
    exact fillAll_selectorPieces_ne hmark front (by decide) _ _

/-- A comment does no harm in front of a rule with the prelude: the rule is a style rule, in the
comment there is neither a comma that parts selectors nor a pseudo-element, and the brackets of the
comment make no difference to the selectors of the rule. -/
structure InertBefore (mark comment prelude : Text) : Prop where
  not_at : (Text.trimStart prelude).head? ≠ some '@'
  noSeparator : NoSeparator 0 comment
  no_pseudo : ¬("::".toList <:+: comment)
  markedBehind_eq :
    markedBehind mark (bracketDepth comment) prelude = (SelectorList.ofText prelude).marked mark

/-- Blanks hold no comma, no bracket and no colon. -/
theorem leadingSpace_ordinary (text : Text) :
    NoSeparator 0 (Text.leadingSpace text) ∧ bracketDepth (Text.leadingSpace text) = 0 ∧
      ':' ∉ Text.leadingSpace text := by
  have hblank {c : Char} (hc : Text.isSpace c = false) : c ∉ Text.leadingSpace text := by
    intro hmem
    rw [List.all_eq_true.mp (Text.all_leadingSpace text) c hmem] at hc
    cases hc
  refine ⟨?_, ?_, hblank (by decide)⟩
  · rintro before after heq -
    exact hblank (c := ',') (by decide) (by simp [heq])
  · refine bracketDepth_eq_zero fun c hmem => ?_
    refine ⟨?_, ?_, ?_, ?_⟩ <;> rintro rfl <;> exact hblank (by decide) hmem

/-- Behind balanced brackets a prelude is read as it is alone, unless its first selector is blank:
then the marker goes in front of the blanks. -/
theorem markedBehind_zero {prelude first : Text} {others : List Text}
    (hsplit : splitCommas 0 (Text.trim prelude) = first :: others) (hne : Text.trimEnd first ≠ []) :
    markedBehind mark 0 prelude = (SelectorList.ofText prelude).marked mark := by
  have htrim : Text.trim prelude ≠ [] := by
    intro hnil
    rw [hnil] at hsplit
    cases hsplit
    exact hne rfl
  obtain ⟨hend, hgap⟩ := Text.trimEnd_append_of_ne_nil (Text.leadingSpace prelude) htrim
  rw [Text.leadingSpace_append_trimStart] at hend hgap
  obtain ⟨hlead, hdepth, hcolon⟩ := leadingSpace_ordinary prelude
  have hpieces : StylePiece.fillAll mark
        (selectorPieces (Text.leadingSpace prelude ++ Text.trimEnd first)) =
      Text.leadingSpace prelude ++ StylePiece.fillAll mark (selectorPieces (Text.trimEnd first)) :=
    fillAll_selectorPieces_append (fun hholds => hcolon (hholds.subset (by decide)))
      (fun c hc heq => hcolon (heq ▸ List.mem_of_getLast? hc)) _
  obtain ⟨first', others', hsplit', hall⟩ := splitCommas_append hlead (Text.trim prelude)
  rw [hdepth, Int.zero_add, hsplit] at hsplit'
  cases hsplit'
  have hmarked : (Selector.ofText first).marked mark =
      StylePiece.fillAll mark (selectorPieces (Text.trimEnd first)) := by
    have hnone : (Selector.ofText first).lead = [] := by
      refine (SelectorList.wellFormed_ofText prelude).lead_of_first _ ?_
      show _ ∈ ((splitCommas 0 (Text.trim prelude)).map Selector.ofText).head?
      rw [hsplit]
      rfl
    have hwhole := Text.leadingSpace_append_trimStart first
    rw [show Text.leadingSpace first = [] from hnone, List.nil_append] at hwhole
    rw [← Selector.fillAll_selectorPieces, Text.trim, hwhole]
  unfold markedBehind SelectorList.marked SelectorList.ofText
  rw [hend, show Text.trimEnd (Text.trimStart prelude) = Text.trim prelude from rfl, hall, hsplit]
  simp only [List.map_cons, List.map_map, hmarked, hpieces, hgap, Text.join_append_cons,
    (Text.trimEnd_append_of_ne_nil (Text.leadingSpace prelude) hne).1]
  rfl

/-- A comment of words does no harm in front of a style rule with a first selector. -/
theorem inertBefore_of_words {prelude first : Text} {others : List Text}
    (hcomment : ∀ c ∈ comment, c ∉ ",:()[]".toList)
    (hat : (Text.trimStart prelude).head? ≠ some '@')
    (hsplit : splitCommas 0 (Text.trim prelude) = first :: others) (hne : Text.trimEnd first ≠ []) :
    InertBefore mark comment prelude := by
  have hother {c : Char} (hc : c ∈ ",:()[]".toList) : c ∉ comment := fun hmem => hcomment c hmem hc
  refine ⟨hat, ?_, fun hholds => ?_, ?_⟩
  · rintro before after rfl -
    exact hother (c := ',') (by decide) (by simp)
  · exact hother (c := ':') (by decide) (hholds.subset (by decide))
  · rw [bracketDepth_eq_zero fun c hmem => ?_]
    · exact markedBehind_zero hsplit hne
    · refine ⟨?_, ?_, ?_, ?_⟩ <;> rintro rfl <;> exact hother (by decide) hmem

/-- A rule with a comment in front of it is scoped as a style rule. -/
theorem scopedRule_comment (hmark : IsMarker mark) (hcomment : IsComment comment)
    {prelude rule : Text} {body : List Lexeme} (hrule : scopedRule mark prelude body = .ok rule) :
    ∃ whole, scopedRule mark (comment ++ prelude) body = .ok whole ∧
      (whole = comment ++ rule ↔ InertBefore mark comment prelude) := by
  have hslash : (Text.trimStart (comment ++ prelude)).head? = some '/' := by
    have hhead : (comment ++ prelude).head? = some '/' := by
      rw [List.head?_append, hcomment.head?]
      rfl
    rw [Text.trimStart_eq_self, hhead]
    rw [hhead]
    rintro c ⟨⟩
    decide
  refine ⟨_, scopedRule_of_style (by rw [hslash]; decide) body, ?_⟩
  rw [← SelectorList.marked_ofText, marked_comment_append_eq_iff hmark hcomment]
  by_cases hat : (Text.trimStart prelude).head? = some '@'
  · refine iff_of_false ?_ fun hinert => hinert.not_at hat
    rintro ⟨-, -, heq⟩
    obtain ⟨name, hname⟩ := List.head?_eq_some_iff.mp hat
    obtain ⟨inner, rfl⟩ := exists_eq_of_scopedRule_at hname hrule
    exact markedBehind_ne hmark _ _ _ _ heq
  · rw [scopedRule_of_style hat, ← SelectorList.marked_ofText] at hrule
    cases hrule
    rw [List.append_cancel_right_eq]
    exact ⟨fun h => ⟨hat, h.1, h.2.1, h.2.2⟩,
      fun h => ⟨h.noSeparator, h.no_pseudo, h.markedBehind_eq⟩⟩

/-! ## Comments between rules -/

/-- A stylesheet can be scoped with a comment in front of it if it can be scoped.  Nothing is
changed by the comment exactly if it does no harm in front of the rule, if any, with which
the stylesheet begins. -/
theorem scopedText_comment (hmark : IsMarker mark) (hcomment : IsComment comment)
    {lexemes : List Lexeme} {out : Text} (hout : scopedText mark lexemes = .ok out) :
    ∃ whole, scopedText mark (.comment comment :: lexemes) = .ok whole ∧
      (whole = comment ++ out ↔ ∀ prelude rest, NoStop prelude →
        lexemes = prelude ++ plain '{' :: rest → InertBefore mark comment (textOf prelude)) := by
  have hcons {prelude : List Lexeme} (h : NoStop prelude) : NoStop (.comment comment :: prelude) :=
    fun lexeme hmem => (List.mem_cons.mp hmem).elim (fun heq => heq ▸ rfl) (h lexeme)
  cases lexemes using cutCases with
  | rest lexemes hnone =>
      rw [scopedText_of_noStop hnone] at hout
      cases hout
      refine ⟨_, scopedText_of_noStop (hcons hnone), iff_of_true rfl ?_⟩
      rintro prelude rest - rfl
      exact absurd (hnone (plain '{') (by simp)) (by decide)
  | close prelude after hprelude =>
      rw [scopedText_close hprelude] at hout
      cases hout
  | unclosed prelude after hprelude hblock =>
      rw [scopedText_unclosed hprelude hblock] at hout
      cases hout
  | statement prelude after hprelude =>
      rw [scopedText_statement hprelude] at hout
      cases hothers : scopedText mark after with
      | error fault =>
          rw [hothers] at hout
          cases hout
      | ok others =>
          rw [hothers] at hout
          cases hout
          refine ⟨comment ++ textOf prelude ++ ';' :: others, ?_, iff_of_true ?_ ?_⟩
          · rw [← List.cons_append, scopedText_statement (hcons hprelude), hothers]
            rfl
          · rw [List.append_assoc]
          · rintro other rest hother heq
            cases (append_stop_inj hprelude hother rfl rfl heq).2.1
  | rule prelude body after hprelude hbody =>
      have hafter : Balanced after :=
        (balanced_rule_iff hprelude hbody).mp (isOk_scopedText_iff.mp ⟨out, hout⟩)
      obtain ⟨others, hothers⟩ := hafter.exists_scopedText mark
      obtain ⟨rule, hrule⟩ := exists_scopedRule (hbody.exists_scopedText mark) (textOf prelude)
      rw [scopedText_rule hprelude hbody, hrule, hothers] at hout
      cases hout
      obtain ⟨whole, hwhole, hiff⟩ := scopedRule_comment hmark hcomment hrule
      refine ⟨whole ++ '}' :: others, ?_, ?_⟩
      · rw [← List.cons_append, scopedText_rule (hcons hprelude) hbody, Lexeme.textOf_cons,
          Lexeme.text, hwhole, hothers]
        rfl
      · rw [← List.append_assoc, List.append_cancel_right_eq, hiff]
        constructor
        · rintro hinert other rest hother heq
          rw [← (append_stop_inj hprelude hother rfl rfl heq).1]
          exact hinert
        · intro hall
          exact hall prelude _ hprelude rfl

/-- A stylesheet that ends with a rule. -/
theorem constructs_emptyRule : Constructs (Lexeme.ofText "p\x7b\x7d") := by
  have hlexemes : Lexeme.ofText "p\x7b\x7d" =
      [plain 'p'] ++ plain '{' :: ([] ++ plain '}' :: []) := by
    decide +kernel
  rw [hlexemes]
  exact .rule (by decide) (by decide) .nil

/-- A comment between rules.  It never keeps a stylesheet from being scoped, and the rules in
front of it are scoped as without it.  It stays as it is, and what follows is scoped as without
it, exactly if it does no harm in front of the rule with which the second stylesheet begins, if
that begins with a rule. -/
theorem comment_between_iff {strategy : ScopeStrategy} {token first comment second out out' : Text}
    (hfirst : scope strategy token first = .ok out) (hconstructs : Constructs (Lexeme.ofText first))
    (hcomment : IsComment comment) (hsecond : scope strategy token second = .ok out') :
    (∃ behind, scope strategy token (first ++ comment ++ second) = .ok (out ++ behind)) ∧
      (scope strategy token (first ++ comment ++ second) = .ok (out ++ comment ++ out') ↔
        ∀ prelude rest, NoStop prelude → Lexeme.ofText second = prelude ++ plain '{' :: rest →
          InertBefore (marker strategy token) comment (textOf prelude)) := by
  obtain ⟨behind, hbehind, hiff⟩ :=
    scopedText_comment (isMarker_marker strategy token) hcomment hsecond
  have hwhole : scope strategy token (first ++ comment ++ second) = .ok (out ++ behind) := by
    have htexts := scopedText_append (marker strategy token) hconstructs
      (.comment comment :: Lexeme.ofText second)
    rw [show scopedText _ (Lexeme.ofText first) = .ok out from hfirst, hbehind,
      ← Lexeme.ofText_append_of_comment hcomment, ← hconstructs.ofText_append,
      ← List.append_assoc] at htexts
    exact htexts
  refine ⟨⟨behind, hwhole⟩, ?_⟩
  rw [hwhole, Except.ok.injEq, List.append_assoc, List.append_cancel_left_eq, hiff]

/-- A comment of one word between two style rules. -/
theorem comment_between_of_word :
    let first : Text := "p\x7b\x7d"
    let comment : Text := "/* icons */"
    let second : Text := " a,b\x7b\x7d"
    let out : Text := "p.s1\x7b\x7d"
    let out' : Text := " a.s1, b.s1\x7b\x7d"
    scope .byClass "s1" first = .ok out ∧ Constructs (Lexeme.ofText first) ∧ IsComment comment ∧
      scope .byClass "s1" second = .ok out' ∧
      scope .byClass "s1" (first ++ comment ++ second) = .ok (out ++ comment ++ out') := by
  intro first comment second out out'
  have hfirst : scope .byClass "s1" first = .ok out := by decide +kernel
  have hcomment : IsComment comment := ⟨" icons ", by decide, rfl⟩
  have hsecond : scope .byClass "s1" second = .ok out' := by decide +kernel
  refine ⟨hfirst, constructs_emptyRule, hcomment, hsecond,
    (comment_between_iff hfirst constructs_emptyRule hcomment hsecond).2.mpr ?_⟩
  intro prelude rest hprelude heq
  have hlexemes : Lexeme.ofText second =
      (" a,b".toList.map plain) ++ plain '{' :: [plain '}'] := by
    decide +kernel
  rw [hlexemes] at heq
  rw [← (append_stop_inj (by decide) hprelude rfl rfl heq).1, Lexeme.textOf_map_plain]
  have hsplit : splitCommas 0 (Text.trim " a,b") = [("a" : Text), "b"] := by decide
  have hwords : comment.all (fun c => !",:()[]".toList.contains c) = true := by decide
  refine inertBefore_of_words (fun c hmem => ?_) (by decide) hsplit (by decide)
  simpa using List.all_eq_true.mp hwords c hmem

/-- A comment in front of a rule that stays as it is alone: the rule is taken for a style rule, and
the comma in the comment parts two selectors. -/
theorem comment_changed_before_font_face :
    let first : Text := "p\x7b\x7d"
    let comment : Text := "/* icons, fonts */"
    let second : Text := "@font-face\x7bsrc:url(a)\x7d"
    let out : Text := "p.s1\x7b\x7d"
    scope .byClass "s1" first = .ok out ∧ Constructs (Lexeme.ofText first) ∧ IsComment comment ∧
      scope .byClass "s1" second = .ok second ∧
      scope .byClass "s1" (first ++ comment ++ second) =
        .ok ("p.s1\x7b\x7d/* icons.s1, fonts */@font-face.s1\x7bsrc:url(a)\x7d" : Text) ∧
      scope .byClass "s1" (first ++ comment ++ second) ≠ .ok (out ++ comment ++ second) := by
  intro first comment second out
  exact ⟨by decide +kernel, constructs_emptyRule, ⟨" icons, fonts ", by decide, rfl⟩,
    by decide +kernel, by decide +kernel, by decide +kernel⟩

end Scope

end ComponentLoader
