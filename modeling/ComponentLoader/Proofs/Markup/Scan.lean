import ComponentLoader.Markup.Element
import ComponentLoader.Proofs.Text.Basic
import Mathlib.Data.List.Infix
set_option autoImplicit false

/-!
# What the scanners of a template find (SPEC §4.4)

A tag is found at its first occurrence.  What is in front of it is described by what it does not
contain, and that is enough: the only `<` of a tag is its first character, so no tag begins in front
of another one and goes on into it.
-/

namespace ComponentLoader.Markup

/-! ## Tags -/

/-- A text is the beginning of a start tag of a kind: the name, in letters of any case, and the
character that ends the name. -/
def IsStart (kind : ElementKind) (start : Text) : Prop :=
  ∃ name c, start = '<' :: (name ++ [c]) ∧ Text.asciiLower name = kind.tag ∧
    (Text.isAsciiSpace c = true ∨ c = '>' ∨ c = '/')

/-- A text is the beginning of an end tag of a kind. -/
def IsEnd (kind : ElementKind) (tag : Text) : Prop :=
  ∃ name, tag = '<' :: '/' :: name ∧ Text.asciiLower name = kind.tag

/-- No element begins in a text. -/
def ElementFree (text : Text) : Prop :=
  ∀ kind start, IsStart kind start → ¬start <:+: text

/-- There is no end tag of a kind in a text. -/
def EndFree (kind : ElementKind) (text : Text) : Prop :=
  ∀ tag, IsEnd kind tag → ¬tag <:+: text

/-- The name of a tag has letters only. -/
theorem not_mem_name {kind : ElementKind} {name : Text} (h : Text.asciiLower name = kind.tag)
    {c : Char} (hc : ∀ kind : ElementKind, c.toLower ∉ kind.tag) : c ∉ name := by
  intro hmem
  refine hc kind ?_
  rw [← h]
  exact List.mem_map.mpr ⟨c, hmem, rfl⟩

theorem lt_not_mem_tail_of_isStart {kind : ElementKind} {start : Text} (h : IsStart kind start) :
    '<' ∉ start.tail := by
  obtain ⟨name, c, rfl, hname, hc⟩ := h
  simp only [List.tail_cons, List.mem_append, List.mem_singleton, not_or]
  refine ⟨not_mem_name hname fun kind => by cases kind <;> decide, ?_⟩
  rintro rfl
  revert hc
  decide

theorem lt_not_mem_tail_of_isEnd {kind : ElementKind} {tag : Text} (h : IsEnd kind tag) :
    '<' ∉ tag.tail := by
  obtain ⟨name, rfl, hname⟩ := h
  simp only [List.tail_cons, List.mem_cons, not_or]
  exact ⟨by decide, not_mem_name hname fun kind => by cases kind <;> decide⟩

/-- What begins in front of a character that it does not hold behind its own
first one ends there. -/
theorem prefix_of_prefix_append_cons {c : Char} {found front rest : Text} (hfound : c ∉ found.tail)
    (hne : front ≠ []) (h : found <+: front ++ c :: rest) : found <+: front := by
  rcases List.prefix_or_prefix_of_prefix h (List.prefix_append front (c :: rest)) with
    hin | ⟨more, rfl⟩
  · exact hin
  · rw [List.prefix_append_right_inj] at h
    cases more with
    | nil => simp
    | cons d more =>
        obtain ⟨rfl, -⟩ := List.cons_prefix_cons.mp h
        obtain ⟨first, others, rfl⟩ := List.exists_cons_of_ne_nil hne
        exact absurd (by simp) hfound

/-! ## Names -/

theorem afterLower?_eq_some_iff {lead text after : Text} :
    afterLower? lead text = some after ↔
      ∃ name, text = name ++ after ∧ Text.asciiLower name = lead := by
  induction lead generalizing text with
  | nil =>
      simp only [afterLower?, Option.some.injEq, Text.asciiLower, List.map_eq_nil_iff]
      constructor
      · intro h
        exact ⟨[], h, rfl⟩
      · rintro ⟨name, rfl, rfl⟩
        rfl
  | cons a lead ih =>
      cases text with
      | nil =>
          simp only [afterLower?, reduceCtorEq, false_iff]
          rintro ⟨name, htext, hname⟩
          obtain ⟨rfl, -⟩ := List.append_eq_nil_iff.mp htext.symm
          cases hname
      | cons b text =>
          unfold afterLower?
          split
          · rename_i hb
            rw [ih]
            constructor
            · rintro ⟨name, rfl, rfl⟩
              exact ⟨b :: name, rfl, by rw [hb]; rfl⟩
            · rintro ⟨name, htext, hname⟩
              cases name with
              | nil => cases hname
              | cons d name =>
                  cases htext
                  cases hname
                  exact ⟨name, rfl, rfl⟩
          · rename_i hb
            simp only [reduceCtorEq, false_iff]
            rintro ⟨name, htext, hname⟩
            cases name with
            | nil => cases hname
            | cons d name =>
                cases htext
                cases hname
                exact hb rfl

theorem endsTagName_iff {text : Text} :
    endsTagName text = true ↔
      ∃ c rest, text = c :: rest ∧ (Text.isAsciiSpace c = true ∨ c = '>' ∨ c = '/') := by
  cases text with
  | nil => simp [endsTagName]
  | cons c rest => simp [endsTagName, or_assoc]

theorem afterTag?_eq_some_iff {kind : ElementKind} {text after : Text} :
    afterTag? kind text = some after ↔
      ∃ name, text = name ++ after ∧ Text.asciiLower name = kind.tag ∧
        endsTagName after = true := by
  unfold afterTag?
  simp only [Option.bind_eq_some_iff, afterLower?_eq_some_iff, Option.ite_none_right_eq_some,
    Option.some.injEq]
  constructor
  · rintro ⟨_, ⟨name, rfl, hname⟩, hend, rfl⟩
    exact ⟨name, rfl, hname, hend⟩
  · rintro ⟨name, rfl, hname, hend⟩
    exact ⟨after, ⟨name, rfl, hname⟩, hend, rfl⟩

/-- No text begins with the names of both kinds. -/
theorem kind_unique {kind kind' : ElementKind} {name name' after after' : Text}
    (hname : Text.asciiLower name = kind.tag) (hname' : Text.asciiLower name' = kind'.tag)
    (heq : name ++ after = name' ++ after') : kind = kind' := by
  have hsecond (after : Text) {kind : ElementKind} {name : Text}
      (h : Text.asciiLower name = kind.tag) :
      (Text.asciiLower (name ++ after))[1]? = kind.tag[1]? := by
    have hlength : 1 < name.length := by
      rw [← Text.length_asciiLower name, h]
      cases kind <;> decide
    rw [Text.asciiLower, List.map_append, List.getElem?_append_left (by simpa using hlength)]
    exact congrArg (·[1]?) h
  have hboth : kind.tag[1]? = kind'.tag[1]? := by
    rw [← hsecond after hname, heq, hsecond after' hname']
  revert hboth
  cases kind <;> cases kind' <;> decide

theorem tag?_eq_some_iff {kind : ElementKind} {text after : Text} :
    tag? text = some (kind, after) ↔
      ∃ name, text = name ++ after ∧ Text.asciiLower name = kind.tag ∧
        endsTagName after = true := by
  rw [← afterTag?_eq_some_iff]
  unfold tag?
  cases hstyle : afterTag? .style text with
  | none =>
      cases kind with
      | style => simp [hstyle]
      | script => simp
  | some found =>
      obtain ⟨name, rfl, hname, -⟩ := afterTag?_eq_some_iff.mp hstyle
      cases kind with
      | style => simp [hstyle]
      | script =>
          simp only [Option.some.injEq, Prod.mk.injEq, reduceCtorEq, false_and, false_iff]
          intro hscript
          obtain ⟨name', heq, hname', -⟩ := afterTag?_eq_some_iff.mp hscript
          cases kind_unique hname hname' heq

/-- A start tag begins with `<` and what `tag?` looks for. -/
theorem tag?_isSome_iff {text : Text} :
    (tag? text).isSome = true ↔ ∃ kind start, IsStart kind start ∧ start <+: '<' :: text := by
  rw [Option.isSome_iff_exists]
  constructor
  · rintro ⟨⟨kind, after⟩, htag⟩
    obtain ⟨name, rfl, hname, hend⟩ := tag?_eq_some_iff.mp htag
    obtain ⟨c, rest, rfl, hc⟩ := endsTagName_iff.mp hend
    exact ⟨kind, _, ⟨name, c, rfl, hname, hc⟩, rest, by simp⟩
  · rintro ⟨kind, _, ⟨name, c, rfl, hname, hc⟩, rest, heq⟩
    have htext : text = name ++ c :: rest := by simpa using heq.symm
    exact ⟨(kind, c :: rest),
      tag?_eq_some_iff.mpr ⟨name, htext, hname, endsTagName_iff.mpr ⟨c, rest, rfl, hc⟩⟩⟩

theorem tag?_isSome_append {text : Text} (h : (tag? text).isSome = true) (more : Text) :
    (tag? (text ++ more)).isSome = true := by
  obtain ⟨kind, start, hstart, hstarts⟩ := tag?_isSome_iff.mp h
  exact tag?_isSome_iff.mpr ⟨kind, start, hstart,
    hstarts.trans (List.prefix_append ('<' :: text) more)⟩

/-! ## First occurrences -/

theorem elementFree_cons_iff {c : Char} {rest : Text} :
    ElementFree (c :: rest) ↔ ¬(c = '<' ∧ (tag? rest).isSome = true) ∧ ElementFree rest := by
  unfold ElementFree
  simp only [List.infix_cons_iff, not_or]
  constructor
  · intro h
    refine ⟨?_, fun kind start hstart => (h kind start hstart).2⟩
    rintro ⟨rfl, htag⟩
    obtain ⟨kind, start, hstart, hstarts⟩ := tag?_isSome_iff.mp htag
    exact (h kind start hstart).1 hstarts
  · rintro ⟨hfirst, hrest⟩ kind start hstart
    refine ⟨fun hstarts => hfirst ?_, hrest kind start hstart⟩
    have hlt : c = '<' := by
      obtain ⟨name, d, rfl, -⟩ := hstart
      exact (List.cons_prefix_cons.mp hstarts).1.symm
    subst hlt
    exact ⟨rfl, tag?_isSome_iff.mpr ⟨kind, start, hstart, hstarts⟩⟩

theorem seekElement_eq_none_iff {text : Text} : seekElement text = none ↔ ElementFree text := by
  induction text with
  | nil =>
      refine iff_of_true rfl fun kind start hstart hholds => ?_
      obtain ⟨name, c, rfl, -⟩ := hstart
      cases List.infix_nil.mp hholds
  | cons c rest ih =>
      rw [elementFree_cons_iff, seekElement]
      split
      · rename_i hfirst
        exact iff_of_false (by simp) fun h => h.1 hfirst
      · rename_i hfirst
        rw [Option.map_eq_none_iff, ih]
        exact ⟨fun h => ⟨hfirst, h⟩, fun h => h.2⟩

/-- The first element of a text is found behind what holds none. -/
theorem seekElement_eq_some_iff {text before found : Text} :
    seekElement text = some (before, found) ↔
      text = before ++ '<' :: found ∧ (tag? found).isSome = true ∧ ElementFree before := by
  induction text generalizing before with
  | nil => simp [seekElement]
  | cons c rest ih =>
      unfold seekElement
      split
      · rename_i hfirst
        obtain ⟨rfl, htag⟩ := hfirst
        constructor
        · intro h
          cases h
          exact ⟨rfl, htag, seekElement_eq_none_iff.mp rfl⟩
        · rintro ⟨heq, -, hfree⟩
          cases before with
          | nil =>
              cases heq
              rfl
          | cons d before =>
              obtain ⟨rfl, rfl⟩ := List.cons.inj heq
              obtain ⟨kind, start, hstart, hstarts⟩ := tag?_isSome_iff.mp htag
              have hin : start <+: '<' :: before :=
                prefix_of_prefix_append_cons (lt_not_mem_tail_of_isStart hstart) (by simp) hstarts
              exact absurd hin.isInfix (hfree kind start hstart)
      · rename_i hfirst
        simp only [Option.map_eq_some_iff, Prod.exists, Prod.mk.injEq]
        constructor
        · rintro ⟨inner, tail, hseek, rfl, rfl⟩
          obtain ⟨rfl, htag, hfree⟩ := ih.mp hseek
          exact ⟨rfl, htag, elementFree_cons_iff.mpr
            ⟨fun hinner => hfirst ⟨hinner.1, tag?_isSome_append hinner.2 _⟩, hfree⟩⟩
        · rintro ⟨heq, htag, hfree⟩
          cases before with
          | nil =>
              cases heq
              exact absurd ⟨rfl, htag⟩ hfirst
          | cons d before =>
              obtain ⟨rfl, rfl⟩ := List.cons.inj heq
              exact ⟨before, found, ih.mpr ⟨rfl, htag, (elementFree_cons_iff.mp hfree).2⟩, rfl, rfl⟩

theorem afterLower?_endTag_isSome_iff {kind : ElementKind} {text : Text} :
    (afterLower? ('<' :: '/' :: kind.tag) text).isSome = true ↔
      ∃ tag, IsEnd kind tag ∧ tag <+: text := by
  rw [Option.isSome_iff_exists]
  simp only [afterLower?_eq_some_iff]
  constructor
  · rintro ⟨after, tag, rfl, htag⟩
    refine ⟨tag, ?_, after, rfl⟩
    obtain ⟨a, rest, rfl, ha, hrest⟩ := List.map_eq_cons_iff.mp htag
    obtain ⟨b, name, rfl, hb, hname⟩ := List.map_eq_cons_iff.mp hrest
    rw [Text.eq_of_toLower ha (by decide), Text.eq_of_toLower hb (by decide)]
    exact ⟨name, rfl, hname⟩
  · rintro ⟨_, ⟨name, rfl, hname⟩, after, rfl⟩
    exact ⟨after, '<' :: '/' :: name, rfl, by rw [← hname]; rfl⟩

theorem endFree_cons_iff {kind : ElementKind} {c : Char} {rest : Text} :
    EndFree kind (c :: rest) ↔
      ¬(afterLower? ('<' :: '/' :: kind.tag) (c :: rest)).isSome = true ∧ EndFree kind rest := by
  unfold EndFree
  rw [afterLower?_endTag_isSome_iff]
  simp only [List.infix_cons_iff, not_or, not_exists, not_and]
  exact ⟨fun h => ⟨fun tag htag => (h tag htag).1, fun tag htag => (h tag htag).2⟩,
    fun h tag htag => ⟨h.1 tag htag, h.2 tag htag⟩⟩

theorem seekEnd_eq_none_iff {kind : ElementKind} {text : Text} :
    seekEnd kind text = none ↔ EndFree kind text := by
  induction text with
  | nil =>
      refine iff_of_true rfl fun tag htag hholds => ?_
      obtain ⟨name, rfl, -⟩ := htag
      cases List.infix_nil.mp hholds
  | cons c rest ih =>
      rw [endFree_cons_iff, seekEnd]
      split
      · rename_i hfirst
        exact iff_of_false (by simp) fun h => h.1 hfirst
      · rename_i hfirst
        rw [Option.map_eq_none_iff, ih]
        exact ⟨fun h => ⟨hfirst, h⟩, fun h => h.2⟩

/-- The first end tag of a text is found behind what holds none. -/
theorem seekEnd_eq_some_iff {kind : ElementKind} {text body found : Text} :
    seekEnd kind text = some (body, found) ↔
      text = body ++ found ∧ EndFree kind body ∧ ∃ tag, IsEnd kind tag ∧ tag <+: found := by
  induction text generalizing body with
  | nil =>
      simp only [seekEnd, reduceCtorEq, false_iff]
      rintro ⟨heq, -, tag, ⟨name, rfl, -⟩, hstarts⟩
      obtain ⟨-, rfl⟩ := List.append_eq_nil_iff.mp heq.symm
      cases List.prefix_nil.mp hstarts
  | cons c rest ih =>
      unfold seekEnd
      split
      · rename_i hfirst
        obtain ⟨tag, htag, hstarts⟩ := afterLower?_endTag_isSome_iff.mp hfirst
        constructor
        · intro h
          cases h
          exact ⟨rfl, seekEnd_eq_none_iff.mp rfl, tag, htag, hstarts⟩
        · rintro ⟨heq, hfree, -, ⟨name, rfl, -⟩, more, rfl⟩
          cases body with
          | nil => rw [heq, List.nil_append]
          | cons d body =>
              rw [heq, List.cons_append, List.cons_append] at hstarts
              have hin : tag <+: d :: body :=
                prefix_of_prefix_append_cons (lt_not_mem_tail_of_isEnd htag) (by simp) hstarts
              exact absurd hin.isInfix (hfree tag htag)
      · rename_i hfirst
        simp only [Option.map_eq_some_iff, Prod.exists, Prod.mk.injEq]
        constructor
        · rintro ⟨inner, tail, hseek, rfl, rfl⟩
          obtain ⟨rfl, hfree, hfound⟩ := ih.mp hseek
          refine ⟨rfl, endFree_cons_iff.mpr ⟨fun hinner => hfirst ?_, hfree⟩, hfound⟩
          obtain ⟨tag, htag, hstarts⟩ := afterLower?_endTag_isSome_iff.mp hinner
          exact afterLower?_endTag_isSome_iff.mpr
            ⟨tag, htag, hstarts.trans (List.prefix_append (c :: inner) tail)⟩
        · rintro ⟨heq, hfree, hfound⟩
          cases body with
          | nil =>
              rw [List.nil_append] at heq
              rw [heq] at hfirst
              exact absurd (afterLower?_endTag_isSome_iff.mpr hfound) hfirst
          | cons d body =>
              obtain ⟨rfl, rfl⟩ := List.cons.inj heq
              exact ⟨body, found, ih.mpr ⟨rfl, (endFree_cons_iff.mp hfree).2, hfound⟩, rfl, rfl⟩

theorem throughTagEnd_append_cons {front : Text} (h : '>' ∉ front) (rest : Text) :
    throughTagEnd (front ++ '>' :: rest) = (front ++ ['>'], rest) := by
  induction front with
  | nil => rfl
  | cons c front ih =>
      obtain ⟨hc, hfront⟩ := not_or.mp fun hmem => h (List.mem_cons.mpr hmem)
      rw [List.cons_append, throughTagEnd, if_neg fun heq => hc heq.symm, ih hfront]
      rfl

theorem throughTagEnd_of_not_mem {text : Text} (h : '>' ∉ text) :
    throughTagEnd text = (text, []) := by
  induction text with
  | nil => rfl
  | cons c rest ih =>
      obtain ⟨hc, hrest⟩ := not_or.mp fun hmem => h (List.mem_cons.mpr hmem)
      rw [throughTagEnd, if_neg fun heq => hc heq.symm, ih hrest]

end ComponentLoader.Markup
