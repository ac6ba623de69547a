import ComponentLoader.Proofs.Style.Comment
import ComponentLoader.Proofs.Style.Place
set_option autoImplicit false

/-!
# Strings in selectors (SPEC §4.3)

A string hides braces and semicolons, but a selector list is read as a text: commas, brackets
and `::` count inside its strings too.  So a string can be cut in two by a comma, or get a
marker before a `::`.  `LeftWhole` says which strings are not touched, and
`keepsString_iff_leftWhole` that all others are.
-/

namespace ComponentLoader

/-! ## Strings as lexemes -/

namespace Lexeme

theorem exists_append_of_stringRest? {quote : Char} {text body after : Text}
    (h : stringRest? quote text = some (body, after)) : ∃ inside, body = inside ++ [quote] := by
  fun_induction stringRest? quote text generalizing body with
  | case1 => cases h
  | case2 => cases h
  | case3 c rest ih =>
      simp only [Option.map_eq_some_iff, Prod.exists, Prod.mk.injEq] at h
      obtain ⟨inner, tail, hinner, rfl, rfl⟩ := h
      obtain ⟨inside, rfl⟩ := ih hinner
      exact ⟨'\\' :: c :: inside, rfl⟩
  | case4 rest =>
      cases h
      exact ⟨[], rfl⟩
  | case5 c rest hslash hlast hquote ih =>
      simp only [Option.map_eq_some_iff, Prod.exists, Prod.mk.injEq] at h
      obtain ⟨inner, tail, hinner, rfl, rfl⟩ := h
      obtain ⟨inside, rfl⟩ := ih hinner
      exact ⟨c :: inside, rfl⟩

/-- A string begins and ends with the same quote. -/
theorem exists_quotes_of_mem {css string : Text} (h : quoted string ∈ ofText css) :
    ∃ quote inside, isQuote quote = true ∧ string = quote :: (inside ++ [quote]) := by
  fun_induction ofText css with
  | case1 => cases h
  | case2 c rest ih =>
      rcases List.mem_cons.mp h with hfirst | hrest
      · unfold first at hfirst
        split at hfirst
        · rename_i hquote
          split at hfirst
          · rename_i body after hstring
            obtain ⟨inside, rfl⟩ := exists_append_of_stringRest? hstring
            cases hfirst
            exact ⟨c, inside, hquote, rfl⟩
          · cases hfirst
        · split at hfirst
          · split at hfirst <;> cases hfirst
          · cases hfirst
      · exact ih hrest

/-- A quote is neither blank nor a character that scoping looks for. -/
theorem ordinary_of_isQuote {c : Char} (h : isQuote c = true) :
    Text.isSpace c = false ∧ c ≠ ':' ∧ c ≠ ',' := by
  obtain rfl | rfl : c = '"' ∨ c = '\'' := by simpa [isQuote] using h
  · decide
  · decide

end Lexeme

namespace Scope

open Lexeme (plain textOf quoted isQuote)
open StylePiece (fillAll places places_nil places_copied places_slot places_append)

/-! ## Pieces of selectors -/

/-- A text in front of a marker is a text in front of what precedes the marker. -/
theorem map_some_isPrefix_iff {string text : Text} {rest : List (Option Char)} :
    string.map some <+: text.map some ++ none :: rest ↔ string <+: text := by
  induction string generalizing text with
  | nil => simp
  | cons c string ih =>
      cases text with
      | nil => simp [List.cons_prefix_cons]
      | cons d text =>
          simp only [List.map_cons, List.cons_append, List.cons_prefix_cons, Option.some.injEq, ih]

/-- A selector has its marker somewhere. -/
theorem exists_places_selectorPieces (selector : Text) :
    ∃ before after, selector = before ++ after ∧
      places (selectorPieces selector) = before.map some ++ none :: after.map some := by
  unfold selectorPieces
  cases hseek : Text.seek "::" selector with
  | none => exact ⟨selector, [], by simp, by simp⟩
  | some found => exact ⟨found.1, found.2, Text.seek_eq_some hseek, by simp⟩

/-- A text that is longer than a selector reaches beyond the marker of the selector. -/
theorem not_isPrefix_of_length_lt {string selector : Text} (h : selector.length < string.length)
    (rest : List (Option Char)) :
    ¬string.map some <+: places (selectorPieces selector) ++ rest := by
  obtain ⟨before, after, rfl, hplaces⟩ := exists_places_selectorPieces selector
  rw [hplaces, List.append_assoc, List.cons_append, map_some_isPrefix_iff]
  intro hprefix
  have hle := hprefix.length_le
  rw [List.length_append] at h
  omega

/-- A selector that begins with a text begins with it unless a pseudo-element is in the text. -/
theorem isPrefix_selectorPieces_iff {string : Text} (hlast : ∀ c ∈ string.getLast?, c ≠ ':')
    (selector : Text) (rest : List (Option Char)) :
    string.map some <+: places (selectorPieces (string ++ selector)) ++ rest ↔
      ¬"::".toList <:+: string := by
  have hcolon : ∀ c ∈ string.getLast?, c ∉ "::".toList := fun c hc => by simpa using hlast c hc
  unfold selectorPieces
  cases hseek : Text.seek "::" string with
  | none =>
      have hpseudo := Text.seek_eq_none_iff.mp hseek
      rw [Text.seek_append_of_not_infix hpseudo hcolon]
      refine iff_of_true ?_ hpseudo
      cases Text.seek "::" selector <;> simp
  | some found =>
      obtain ⟨before, found⟩ := found
      have hpseudo : "::".toList <:+: string := by
        rw [Text.seek_eq_some hseek]
        exact (Text.isPrefix_of_seek hseek).isInfix.trans (List.suffix_append _ _).isInfix
      obtain ⟨after, rfl⟩ := Text.isPrefix_of_seek hseek
      rw [Text.seek_append_of_eq_some hseek]
      refine iff_of_false ?_ (not_not_intro hpseudo)
      simp only [places_copied, places_slot, List.append_assoc, List.cons_append,
        map_some_isPrefix_iff]
      intro hprefix
      have hle := hprefix.length_le
      rw [Text.seek_eq_some hseek] at hle
      simp only [List.length_append] at hle
      have : 0 < "::".toList.length := by decide
      omega

theorem fillAll_nil_selectorPieces (selector : Text) :
    fillAll [] (selectorPieces selector) = selector := by
  unfold selectorPieces
  cases hseek : Text.seek "::" selector with
  | none => simp
  | some found => simpa using (Text.seek_eq_some hseek).symm

/-! ## Lists of selectors -/

/-- The last selector of a list as far as it goes. -/
def lastSelector (front : Text) : Text :=
  (splitCommas 0 front).getLastD []

theorem lastSelector_of_noSeparator {front : Text} (h : NoSeparator 0 front) :
    lastSelector front = front := by
  rw [lastSelector, splitCommas_of_noSeparator h]
  rfl

/-- A comma that parts selectors ends what matters of the text in front of it. -/
theorem lastSelector_append_comma {front : Text} (h : NoSeparator 0 front)
    (hdepth : bracketDepth front = 0) (rest : Text) :
    lastSelector (front ++ ',' :: rest) = lastSelector rest ∧
      bracketDepth (front ++ ',' :: rest) = bracketDepth rest := by
  obtain ⟨first, others, hfirst⟩ := List.exists_cons_of_ne_nil (splitCommas_ne_nil 0 rest)
  constructor
  · rw [lastSelector, lastSelector, splitCommas_append_comma h ((Int.zero_add _).trans hdepth),
    hfirst]
    rfl
  · rw [bracketDepth_append, hdepth, bracketDepth, Int.zero_add]
    exact Int.zero_add _

/-- The selectors behind the first, with the comma in front of them. -/
def behindFirst : List Text → List StylePiece
  | [] => []
  | selector :: others => .copied ", " :: joinSelectors (selector :: others)

theorem joinSelectors_cons (selector : Text) (others : List Text) :
    joinSelectors (selector :: others) =
      selectorPieces (Text.trim selector) ++ behindFirst others := by
  cases others with
  | nil => exact (List.append_nil _).symm
  | cons next more => rfl

theorem behindFirst_splitCommas (text : Text) :
    behindFirst (splitCommas 0 text) = .copied ", " :: joinSelectors (splitCommas 0 text) := by
  obtain ⟨first, others, hsplit⟩ := List.exists_cons_of_ne_nil (splitCommas_ne_nil 0 text)
  rw [hsplit]
  rfl

/-- Blanks in front of a list of selectors are lost. -/
theorem joinSelectors_splitCommas_trimStart (text : Text) :
    joinSelectors (splitCommas 0 (Text.trimStart text)) = joinSelectors (splitCommas 0 text) := by
  obtain ⟨hsep, hdepth, -⟩ := leadingSpace_ordinary text
  obtain ⟨first, others, hfirst, hsplit⟩ := splitCommas_append hsep (Text.trimStart text)
  rw [Text.leadingSpace_append_trimStart] at hsplit
  rw [hdepth, Int.add_zero] at hfirst
  rw [hfirst, hsplit, joinSelectors_cons, joinSelectors_cons, Text.trim, Text.trim,
    Text.trimStart_append_of_all (Text.all_leadingSpace text)]

/-- A scoped list of selectors does not begin with a blank. -/
theorem not_isPrefix_joinSelectors {c : Char} (hc : Text.isSpace c = true) (string text : Text)
    (rest : List (Option Char)) :
    ¬(c :: string).map some <+: places (joinSelectors (splitCommas 0 text)) ++ rest := by
  obtain ⟨first, others, hsplit⟩ := List.exists_cons_of_ne_nil (splitCommas_ne_nil 0 text)
  obtain ⟨before, after, hfirst, hplaces⟩ := exists_places_selectorPieces (Text.trim first)
  rw [hsplit, joinSelectors_cons, places_append, hplaces, List.append_assoc, List.append_assoc,
    List.cons_append, map_some_isPrefix_iff]
  rintro ⟨more, rfl⟩
  have hhead : c ∈ (Text.trim first).head? := by
    rw [hfirst]
    rfl
  have hblank := Text.isSpace_of_head?_trimStart (Text.mem_head?_of_trimEnd hhead)
  rw [hc] at hblank
  cases hblank

/-! ## Selectors read from the middle -/

/-- The pieces of a selector from somewhere on, and of the selectors behind it, if `depth` brackets
are open there.  A selector that is `marked` has its marker in front. -/
def piecesFrom (marked : Bool) (depth : Int) (text : Text) : List StylePiece :=
  match splitCommas depth text with
  | [] => []
  | first :: others =>
    (if marked then [.copied (Text.trimEnd first)] else selectorPieces (Text.trimEnd first)) ++
      behindFirst others

theorem joinSelectors_eq_piecesFrom {text : Text} (h : Text.trimStart text = text) :
    joinSelectors (splitCommas 0 text) = piecesFrom false 0 text := by
  obtain ⟨first, others, hsplit⟩ := List.exists_cons_of_ne_nil (splitCommas_ne_nil 0 text)
  have hfirst : Text.trimStart first = first := by
    refine Text.trimStart_eq_self fun c hc => ?_
    have hhead := Text.mem_head?_join "," (hsplit ▸ rfl : first ∈ (splitCommas 0 text).head?) hc
    rw [(isSelectorList_splitCommas text).join_eq, ← h] at hhead
    exact Text.isSpace_of_head?_trimStart hhead
  rw [piecesFrom, hsplit, joinSelectors_cons, Text.trim, hfirst]
  rfl

/-- Nothing but blanks at the end of a selector is lost in front of a comma. -/
theorem isPrefix_trimEnd_comma_iff {front behind : Text} {rest : List (Option Char)} :
    (front ++ ',' :: behind).map some <+: (Text.trimEnd front).map some ++ some ',' :: rest ↔
      Text.trimEnd front = front ∧ behind.map some <+: rest := by
  have hfront := Text.trimEnd_append_trailingSpace front
  cases hblank : Text.trailingSpace front with
  | nil =>
      rw [hblank, List.append_nil] at hfront
      rw [hfront, List.map_append, List.prefix_append_right_inj]
      simp [List.cons_prefix_cons]
  | cons c blanks =>
      have hc := Text.all_trailingSpace front
      rw [hblank, List.all_cons, Bool.and_eq_true] at hc
      refine iff_of_false ?_ fun hall => ?_
      · conv => enter [1, 1]; rw [← hfront, hblank]
        rw [List.append_assoc, List.map_append, List.prefix_append_right_inj, List.cons_append,
          List.map_cons, List.cons_prefix_cons]
        rintro ⟨heq, -⟩
        cases heq
        exact absurd hc.1 (by decide)
      · rw [hall.1, hblank] at hfront
        simp at hfront

/-- A string that is parted by one comma and put together again as it was: one blank stands behind
the comma, which is what the selectors are joined with. -/
structure Rejoined (depth : Int) (before after : Text) : Prop where
  noSeparator : NoSeparator depth before
  depth_eq : depth + bracketDepth before = 0
  trimEnd_eq : Text.trimEnd before = before
  trimStart_eq : Text.trimStart after = after
  noSeparator_after : NoSeparator 0 after
  no_pseudo : ¬"::".toList <:+: after

section Behind

variable {string : Text} {quote : Char} (hquote : isQuote quote = true)
  (hlast : string.getLast? = some quote)

include hquote hlast

theorem last_ordinary : ∀ c ∈ string.getLast?, Text.isSpace c = false ∧ c ≠ ':' ∧ c ≠ ',' := by
  rw [hlast]
  rintro c ⟨⟩
  exact Lexeme.ordinary_of_isQuote hquote

/-- A string in a selector without a pseudo-element in front of it. -/
theorem isPrefix_piecesFrom_unmarked_iff (depth : Int) (back : Text) (rest : List (Option Char)) :
    string.map some <+: places (piecesFrom false depth (string ++ back)) ++ rest ↔
      NoSeparator depth string ∧ ¬"::".toList <:+: string := by
  have hend := last_ordinary hquote hlast
  rcases noSeparator_or_exists depth string with hnone | ⟨front, after, rfl, hfront, hdepth⟩
  · obtain ⟨first, others, -, hsplit⟩ := splitCommas_append hnone back
    simp only [piecesFrom, hsplit, Bool.false_eq_true, if_false]
    rw [Text.trimEnd_append fun c hc => (hend c hc).1, places_append, List.append_assoc,
      isPrefix_selectorPieces_iff fun c hc => (hend c hc).2.1]
    exact (and_iff_right hnone).symm
  · refine iff_of_false ?_ fun hall => hall.1 front after rfl hdepth
    have hle : (Text.trimEnd front).length ≤ front.length := by
      have := congrArg List.length (Text.trimEnd_append_trailingSpace front)
      rw [List.length_append] at this
      omega
    rw [List.append_assoc, List.cons_append, piecesFrom, splitCommas_append_comma hfront hdepth]
    simp only [Bool.false_eq_true, if_false, places_append, List.append_assoc]
    refine not_isPrefix_of_length_lt ?_ _
    rw [List.length_append, List.length_cons]
    omega

/-- A string that a list of selectors begins with. -/
theorem isPrefix_joinSelectors_iff (back : Text) (rest : List (Option Char)) :
    string.map some <+: places (joinSelectors (splitCommas 0 (string ++ back))) ++ rest ↔
      Text.trimStart string = string ∧ NoSeparator 0 string ∧ ¬"::".toList <:+: string := by
  obtain ⟨c, more, rfl⟩ : ∃ c more, string = c :: more := by
    cases string with
    | nil => cases hlast
    | cons c more => exact ⟨c, more, rfl⟩
  cases hc : Text.isSpace c with
  | true =>
      refine iff_of_false (not_isPrefix_joinSelectors hc _ _ _) fun hall => ?_
      have hhead : c ∈ (Text.trimStart (c :: more)).head? := by
        rw [hall.1]
        rfl
      have hblank := Text.isSpace_of_head?_trimStart hhead
      rw [hc] at hblank
      cases hblank
  | false =>
      have htrim (text : Text) : Text.trimStart (c :: text) = c :: text :=
        (Text.trimStart_append_cons hc [] text).2
      rw [List.cons_append, joinSelectors_eq_piecesFrom (htrim _), ← List.cons_append,
        isPrefix_piecesFrom_unmarked_iff hquote hlast]
      exact (and_iff_right (htrim more)).symm

/-- A string that stands behind the comma that parted it. -/
theorem isPrefix_space_joinSelectors_iff (back : Text) (rest : List (Option Char)) :
    string.map some <+:
        some ' ' :: (places (joinSelectors (splitCommas 0 (string ++ back))) ++ rest) ↔
      ∃ after, string = ' ' :: after ∧ Text.trimStart after = after ∧ NoSeparator 0 after ∧
        ¬"::".toList <:+: after := by
  cases string with
  | nil => cases hlast
  | cons c after =>
      rw [List.map_cons, List.cons_prefix_cons, Option.some.injEq]
      by_cases hc : c = ' '
      · subst hc
        have hafter : after.getLast? = some quote := by
          cases after with
          | nil =>
              cases hlast
              cases hquote
          | cons d more => simpa using hlast
        have hblank : Text.trimStart (' ' :: (after ++ back)) = Text.trimStart (after ++ back) :=
          rfl
        rw [List.cons_append, ← joinSelectors_splitCommas_trimStart, hblank,
          joinSelectors_splitCommas_trimStart, isPrefix_joinSelectors_iff hquote hafter]
        simp
      · refine iff_of_false (fun hall => hc hall.1) ?_
        rintro ⟨more, heq, -⟩
        exact hc (List.cons.inj heq).1

/-- A string in a selector with a pseudo-element in front of it. -/
theorem isPrefix_piecesFrom_marked_iff (depth : Int) (back : Text) (rest : List (Option Char)) :
    string.map some <+: places (piecesFrom true depth (string ++ back)) ++ rest ↔
      NoSeparator depth string ∨
        ∃ before after, string = before ++ (", " ++ after) ∧ Rejoined depth before after := by
  have hend := last_ordinary hquote hlast
  rcases noSeparator_or_exists depth string with hnone | ⟨front, behind, rfl, hfront, hdepth⟩
  · obtain ⟨first, others, -, hsplit⟩ := splitCommas_append hnone back
    simp only [piecesFrom, hsplit, if_true]
    rw [Text.trimEnd_append fun c hc => (hend c hc).1]
    refine iff_of_true ?_ (Or.inl hnone)
    simp
  · have hsep : ¬NoSeparator depth (front ++ ',' :: behind) := fun hnone =>
      hnone front behind rfl hdepth
    rw [or_iff_right hsep, List.append_assoc, List.cons_append, piecesFrom,
      splitCommas_append_comma hfront hdepth]
    simp only [if_true, behindFirst_splitCommas, List.singleton_append, places_copied]
    have hparts : (Text.trimEnd front).map some ++ ((", ".toList).map some ++
          places (joinSelectors (splitCommas 0 (behind ++ back)))) ++ rest =
        (Text.trimEnd front).map some ++ some ',' :: some ' ' ::
          (places (joinSelectors (splitCommas 0 (behind ++ back))) ++ rest) := by simp
    have hbehind : behind.getLast? = some quote := by
      cases behind with
      | nil => exact absurd rfl (hend ',' (by simp)).2.2
      | cons d more => simpa using hlast
    rw [hparts, isPrefix_trimEnd_comma_iff]
    constructor
    · rintro ⟨htrim, hprefix⟩
      obtain ⟨after, rfl, hstart, hafter, hpseudo⟩ :=
        (isPrefix_space_joinSelectors_iff hquote hbehind back rest).mp hprefix
      exact ⟨front, after, rfl, hfront, hdepth, htrim, hstart, hafter, hpseudo⟩
    · rintro ⟨before, after, heq, h⟩
      obtain ⟨rfl, rfl⟩ := separator_inj hfront hdepth h.noSeparator h.depth_eq heq
      exact ⟨h.trimEnd_eq, (isPrefix_space_joinSelectors_iff hquote hbehind back rest).mpr
        ⟨after, rfl, h.trimStart_eq, h.noSeparator_after, h.no_pseudo⟩⟩

end Behind

/-! ## What is in front of a string -/

theorem pseudo_trimStart_iff (text : Text) :
    "::".toList <:+: Text.trimStart text ↔ "::".toList <:+: text := by
  have hwhole := Text.leadingSpace_append_trimStart text
  obtain ⟨-, -, hcolon⟩ := leadingSpace_ordinary text
  constructor
  · intro hpseudo
    rw [← hwhole]
    exact hpseudo.trans (List.suffix_append _ _).isInfix
  · intro hpseudo
    by_contra hnone
    have hblank : ¬"::".toList <:+: Text.leadingSpace text := fun h => hcolon (h.subset (by decide))
    have hlast : ∀ c ∈ (Text.leadingSpace text).getLast?, c ∉ "::".toList := by
      intro c hc hmem
      obtain rfl : c = ':' := by simpa using hmem
      exact hcolon (List.mem_of_getLast? hc)
    have hseek := Text.seek_append_of_not_infix hblank hlast (Text.trimStart text)
    rw [hwhole, Text.seek_eq_none_iff.mpr hnone] at hseek
    exact Text.seek_eq_none_iff.mp hseek hpseudo

/-- A selector up to a character that is neither blank nor a colon. -/
theorem exists_places_selectorPieces_append (front : Text) {c : Char}
    (hspace : Text.isSpace c = false) (hcolon : c ≠ ':') (text : Text) :
    ∃ before, Text.withoutSpace (fillAll [] before) = Text.withoutSpace front ∧
      places (selectorPieces (Text.trim (front ++ c :: text))) = places before ++
        places (if "::".toList <:+: front then [.copied (Text.trimEnd (c :: text))]
          else selectorPieces (Text.trimEnd (c :: text))) := by
  have hc : ∀ d ∈ [c].getLast?, Text.isSpace d = false := by
    rintro d ⟨⟩
    exact hspace
  have hend : Text.trimEnd (c :: text) = c :: Text.trimEnd text := Text.trimEnd_append hc text
  have htrim : Text.trim (front ++ c :: text) = Text.trimStart front ++ c :: Text.trimEnd text := by
    rw [Text.trim, (Text.trimStart_append_cons hspace front text).2,
      (Text.trimEnd_append_of_ne_nil _ (by rw [hend]; simp)).1, hend]
  rw [htrim, hend]
  by_cases hpseudo : "::".toList <:+: Text.trimStart front
  · rw [if_pos ((pseudo_trimStart_iff front).mp hpseudo)]
    cases hseek : Text.seek "::" (Text.trimStart front) with
    | none => exact absurd hpseudo (Text.seek_eq_none_iff.mp hseek)
    | some found =>
        refine ⟨[.copied found.1, .slot, .copied found.2], ?_, ?_⟩
        · rw [← Text.withoutSpace_trimStart front, Text.seek_eq_some hseek]
          simp
        · rw [selectorPieces, Text.seek_append_of_eq_some hseek]
          simp
  · rw [if_neg fun h => hpseudo ((pseudo_trimStart_iff front).mpr h)]
    refine ⟨[.copied (Text.trimStart front)], by simp, ?_⟩
    rw [selectorPieces, Text.seek_append_cons_of_not_infix hpseudo (by simpa using hcolon)]
    unfold selectorPieces
    cases Text.seek "::" (c :: Text.trimEnd text) <;> simp

/-- The selectors up to a quote are scoped as they stand, and from it on as `piecesFrom` says. -/
theorem exists_places_joinSelectors {quote : Char} (hquote : isQuote quote = true)
    (front text : Text) :
    ∃ before, Text.withoutSpace (fillAll [] before) = Text.withoutSpace front ∧
      places (joinSelectors (splitCommas 0 (front ++ quote :: text))) = places before ++
        places (piecesFrom (decide ("::".toList <:+: lastSelector front)) (bracketDepth front)
          (quote :: text)) := by
  obtain ⟨hspace, hcolon, hcomma⟩ := Lexeme.ordinary_of_isQuote hquote
  induction hsize : front.length using Nat.strongRecOn generalizing front with
  | ind size ih =>
      rcases noSeparator_or_exists 0 front with hnone | ⟨before, rest, rfl, hbefore, hdepth⟩
      · obtain ⟨first, others, hfirst, hsplit⟩ := splitCommas_append hnone (quote :: text)
        rw [Int.zero_add] at hfirst
        obtain ⟨inside, more, hall⟩ :=
          exists_splitCommas_cons
            (fun hc => hcomma hc.1 : ¬(quote = ',' ∧ bracketDepth front = 0)) text
        obtain ⟨rfl, rfl⟩ := List.cons.inj (hfirst.symm.trans hall)
        obtain ⟨pieces, hsame, hplaces⟩ :=
          exists_places_selectorPieces_append front hspace hcolon inside
        refine ⟨pieces, hsame, ?_⟩
        simp only [hsplit, joinSelectors_cons, piecesFrom, hfirst,
          lastSelector_of_noSeparator hnone,
          places_append, hplaces, decide_eq_true_eq, List.append_assoc]
      · obtain ⟨pieces, hsame, hplaces⟩ := ih rest.length (by simp [← hsize]; omega) rest rfl
        obtain ⟨hlast, hbrackets⟩ :=
          lastSelector_append_comma hbefore ((Int.zero_add _).symm.trans hdepth) rest
        refine ⟨selectorPieces (Text.trim before) ++ .copied ", " :: pieces, ?_, ?_⟩
        · rw [StylePiece.fillAll_append, StylePiece.fillAll_copied, fillAll_nil_selectorPieces,
            Text.withoutSpace_append, Text.withoutSpace_append, hsame, Text.withoutSpace_trim,
            Text.withoutSpace_append, Text.withoutSpace_cons (by decide)]
          rfl
        · rw [List.append_assoc, List.cons_append, splitCommas_append_comma hbefore hdepth,
            joinSelectors_cons, behindFirst_splitCommas, hlast, hbrackets, places_append,
            places_copied, hplaces]
          simp

/-! ## Strings that scoping leaves alone -/

/-- A string of a selector list is not touched: no comma in it parts selectors and no `::` in it
gets a marker.  Behind a pseudo-element of the selector no `::` gets a marker, and a comma does no
harm if the string is put together again as it was. -/
inductive LeftWhole (front string : Text) : Prop where
  | plain (noSeparator : NoSeparator (bracketDepth front) string)
      (no_pseudo : ¬"::".toList <:+: string)
  | behindPseudo (pseudo : "::".toList <:+: lastSelector front)
      (noSeparator : NoSeparator (bracketDepth front) string)
  | rejoined (pseudo : "::".toList <:+: lastSelector front) {before after : Text}
      (string_eq : string = before ++ (", " ++ after))
      (rejoined : Rejoined (bracketDepth front) before after)

theorem isPrefix_piecesFrom_iff {string : Text} {quote : Char} (hquote : isQuote quote = true)
    (hlast : string.getLast? = some quote) (front back : Text) (rest : List (Option Char)) :
    string.map some <+:
        places (piecesFrom (decide ("::".toList <:+: lastSelector front)) (bracketDepth front)
          (string ++ back)) ++ rest ↔
      LeftWhole front string := by
  by_cases hpseudo : "::".toList <:+: lastSelector front
  · rw [decide_eq_true hpseudo, isPrefix_piecesFrom_marked_iff hquote hlast]
    constructor
    · rintro (hsep | ⟨before, after, heq, h⟩)
      · exact .behindPseudo hpseudo hsep
      · exact .rejoined hpseudo heq h
    · rintro (⟨hsep, -⟩ | ⟨-, hsep⟩ | ⟨-, heq, h⟩)
      · exact Or.inl hsep
      · exact Or.inl hsep
      · exact Or.inr ⟨_, _, heq, h⟩
  · rw [decide_eq_false hpseudo, isPrefix_piecesFrom_unmarked_iff hquote hlast]
    constructor
    · exact fun hall => .plain hall.1 hall.2
    · rintro (⟨hsep, hnone⟩ | ⟨hin, -⟩ | ⟨hin, -, -⟩)
      · exact ⟨hsep, hnone⟩
      · exact absurd hin hpseudo
      · exact absurd hin hpseudo

/-- A quote is never touched. -/
theorem leftWhole_quote {quote : Char} (hquote : isQuote quote = true) (front : Text) :
    LeftWhole front [quote] := by
  have hnil (depth : Int) : NoSeparator depth [] := fun before after heq =>
    absurd heq (List.append_ne_nil_of_right_ne_nil before (List.cons_ne_nil _ _)).symm
  obtain ⟨-, hcolon, hcomma⟩ := Lexeme.ordinary_of_isQuote hquote
  refine .plain (noSeparator_cons_iff.mpr ⟨fun hc => hcomma hc.1, hnil _⟩) fun hpseudo => hcolon ?_
  have hmem : ':' ∈ [quote] := hpseudo.subset (by decide)
  exact (List.mem_singleton.mp hmem).symm

/-- A prelude with a string in it, without the blanks around it. -/
theorem marked_ofText_of_string {string : Text} {quote : Char} (hquote : isQuote quote = true)
    (hhead : string.head? = some quote) (hlast : string.getLast? = some quote)
    (mark front behind : Text) :
    (SelectorList.ofText (front ++ (string ++ behind))).marked mark = Text.leadingSpace front ++
      (fillAll mark (joinSelectors (splitCommas 0 (front ++ (string ++ Text.trimEnd behind)))) ++
        Text.trailingSpace behind) := by
  have hspace := (Lexeme.ordinary_of_isQuote hquote).1
  obtain ⟨inside, rfl⟩ := List.head?_eq_some_iff.mp hhead
  have hstart (text : Text) := Text.trimStart_append_cons hspace front (inside ++ text)
  have hend : ∀ c ∈ (Text.trimStart front ++ quote :: inside).getLast?, Text.isSpace c = false := by
    rw [List.getLast?_append, hlast]
    rintro c ⟨⟩
    exact hspace
  rw [SelectorList.marked_ofText, List.cons_append, (hstart behind).1, (hstart behind).2,
    selectorListPieces, ← List.cons_append, ← List.append_assoc, Text.trimEnd_append hend,
    Text.trailingSpace_append hend, ← joinSelectors_splitCommas_trimStart (front ++ _),
    List.cons_append, (hstart _).2]
  simp

/-- Exactly the strings that are `LeftWhole` stay as they are, and get no marker. -/
theorem keepsString_iff_leftWhole {strategy : ScopeStrategy} {token css out string : Text}
    {front inFront : List Lexeme} (h : scope strategy token css = .ok out)
    (stands : InSelectors string front inFront (Lexeme.ofText css)) :
    KeepsString css (textOf front) string ↔ LeftWhole (textOf inFront) string := by
  obtain ⟨before, after, behind, hmem, htext, hfront⟩ :=
    stands.exists_pieces (isOk_scopedText_iff.mp ⟨out, h⟩)
  obtain ⟨quote, inside, hquote, rfl⟩ := Lexeme.exists_quotes_of_mem hmem
  have hquoteLast : [quote].getLast? = some quote := rfl
  have hlast : (quote :: (inside ++ [quote])).getLast? = some quote := by
    rw [← List.cons_append, List.getLast?_concat]
  obtain ⟨middle, hmiddle, hplaces⟩ := exists_places_joinSelectors hquote (textOf inFront)
    (inside ++ [quote] ++ Text.trimEnd behind)
  let rest := piecesFrom (decide ("::".toList <:+: lastSelector (textOf inFront)))
    (bracketDepth (textOf inFront)) (quote :: (inside ++ [quote] ++ Text.trimEnd behind))
  have hscope (strategy : ScopeStrategy) (token : Text) : scope strategy token css =
      .ok (fillAll (marker strategy token)
        ((before ++ .copied (Text.leadingSpace (textOf inFront)) :: middle) ++
          (rest ++ .copied (Text.trailingSpace behind) :: after))) := by
    have hjoined := congrArg (StylePiece.filled (marker strategy token)) hplaces
    rw [StylePiece.filled_append, StylePiece.filled_places, StylePiece.filled_places,
      StylePiece.filled_places] at hjoined
    rw [show scope strategy token css =
        scopedText (marker strategy token) (Lexeme.ofText css) from rfl,
      htext, marked_ofText_of_string hquote rfl hlast, List.cons_append, hjoined]
    simp [rest]
  have hsame : Text.withoutSpace
        (fillAll [] (before ++ .copied (Text.leadingSpace (textOf inFront)) :: middle)) =
      Text.withoutSpace (textOf front) := by
    rw [StylePiece.fillAll_append, StylePiece.fillAll_copied, Text.withoutSpace_append,
      Text.withoutSpace_append, Text.withoutSpace_eq_nil (Text.all_leadingSpace _), hmiddle,
      ← hfront]
    rfl
  -- the string begins where it is to be found, whatever becomes of it
  obtain ⟨more, hmore⟩ := (isPrefix_piecesFrom_iff hquote hquoteLast (textOf inFront)
    (inside ++ [quote] ++ Text.trimEnd behind)
    (places (.copied (Text.trailingSpace behind) :: after))).mpr (leftWhole_quote hquote _)
  have hrest : places (rest ++ .copied (Text.trailingSpace behind) :: after) =
      some quote :: more := by
    rw [places_append]
    exact hmore.symm
  rw [keepsString_iff hscope hsame (Lexeme.ordinary_of_isQuote hquote).1 hrest, places_append]
  exact isPrefix_piecesFrom_iff hquote hlast _ _ _

/-- A comma between the brackets of a selector. -/
theorem keepsString_of_bracketed_comma :
    let css : Text := "p\x7b\x7da[title=\"x,y\"], b\x7b\x7d"
    let string : Text := "\"x,y\""
    let front : Text := "p\x7b\x7d"
    let inFront : Text := "a[title="
    scope .byClass "s1" css = .ok ("p.s1\x7b\x7da[title=\"x,y\"].s1, b.s1\x7b\x7d" : Text) ∧
      InSelectors string (Lexeme.ofText front ++ inFront.map plain) (inFront.map plain)
        (Lexeme.ofText css) ∧
      KeepsString css (front ++ inFront) string := by
  intro css string front inFront
  have hout : scope .byClass "s1" css =
      .ok ("p.s1\x7b\x7da[title=\"x,y\"].s1, b.s1\x7b\x7d" : Text) := by decide +kernel
  have hlexemes : Lexeme.ofText css = Lexeme.ofText front ++
      (inFront.map plain ++ quoted string :: ("], b" : Text).map plain ++
        plain '{' :: ([] ++ plain '}' :: [])) := by decide +kernel
  have hfront : Constructs (Lexeme.ofText front) := by
    have hrule : Lexeme.ofText front = [plain 'p'] ++ plain '{' :: ([] ++ plain '}' :: []) := by
      decide +kernel
    rw [hrule]
    exact .rule (by decide) (by decide) .nil
  have hstands : InSelectors string (Lexeme.ofText front ++ inFront.map plain) (inFront.map plain)
      (Lexeme.ofText css) := by
    rw [hlexemes]
    exact .behind hfront (.here (by decide) (by decide) (by decide))
  have hwhole : LeftWhole (textOf (inFront.map plain)) string := by
    rw [Lexeme.textOf_map_plain]
    exact .plain (by decide) (by decide)
  have hkeeps := (keepsString_iff_leftWhole hout hstands).mpr hwhole
  rw [Lexeme.textOf_append, Lexeme.textOf_ofText, Lexeme.textOf_map_plain] at hkeeps
  exact ⟨hout, hstands, hkeeps⟩

/-- A `::` in a string gets the marker, and a comma behind a bracket in a string parts it. -/
theorem string_changed_in_selector :
    let css : Text := "a[title=\"x::y\"]\x7b\x7d"
    let string : Text := "\"x::y\""
    let out : Text := "a[title=\"x.s1::y\"]\x7b\x7d"
    let css' : Text := "a[b=\"],c\"]\x7b\x7d"
    let string' : Text := "\"],c\""
    let out' : Text := "a[b=\"].s1, c\"].s1\x7b\x7d"
    (scope .byClass "s1" css = .ok out ∧
      InSelectors string (("a[title=" : Text).map plain) (("a[title=" : Text).map plain)
        (Lexeme.ofText css) ∧ ¬string <:+: out) ∧
    (scope .byClass "s1" css' = .ok out' ∧
      InSelectors string' (("a[b=" : Text).map plain) (("a[b=" : Text).map plain)
        (Lexeme.ofText css') ∧ ¬string' <:+: out') := by
  intro css string out css' string' out'
  have hlexemes : Lexeme.ofText css =
      ("a[title=" : Text).map plain ++ quoted string :: [plain ']'] ++
      plain '{' :: ([] ++ plain '}' :: []) := by decide +kernel
  have hlexemes' : Lexeme.ofText css' =
      ("a[b=" : Text).map plain ++ quoted string' :: [plain ']'] ++
      plain '{' :: ([] ++ plain '}' :: []) := by decide +kernel
  rw [hlexemes, hlexemes']
  exact ⟨⟨by decide +kernel, .here (by decide) (by decide) (by decide), by decide⟩,
    ⟨by decide +kernel, .here (by decide) (by decide) (by decide), by decide⟩⟩

end Scope

end ComponentLoader
