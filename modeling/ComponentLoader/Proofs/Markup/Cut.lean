import ComponentLoader.Proofs.Markup.Scan
import ComponentLoader.Proofs.Template.Header
set_option autoImplicit false

/-!
# Cutting templates (SPEC §4.4)

`IsCut` says what it is to cut a source at its elements, without a scanner: pieces of the body in
which no element begins, between them elements that are complete, and at the end the last piece of
the body or the first element that cannot be completed.  Each source has one cut and no other
(`isCut_iff`), so the parser neither loses nor repeats anything, and it fails only where it has to.
-/

namespace ComponentLoader

namespace Markup

/-! ## Elements -/

/-- The name and the inside of a start tag. -/
structure IsStartTag (kind : ElementKind) (name inside : Text) : Prop where
  name_eq : Text.asciiLower name = kind.tag
  endsTagName : endsTagName (inside ++ ['>']) = true
  no_end : '>' ∉ inside

/-- An end tag runs to its `>`, or to the end of the source if there is none. -/
def ThroughEnd (ending after : Text) : Prop :=
  (∃ front, '>' ∉ front ∧ ending = front ++ ['>']) ∨ '>' ∉ ending ∧ after = []

/-- An element is complete if its start tag closes it, or else if it runs from its start tag through
the first end tag of its name. -/
inductive Element.Complete : Element → (after : Text) → Prop where
  | selfClosed {kind : ElementKind} {offset : Nat} {name inside after : Text}
      (start : IsStartTag kind name inside) (slash : inside.getLast? = some '/') :
      Complete ⟨kind, offset, name, inside, none, []⟩ after
  | ended {kind : ElementKind} {offset : Nat} {name inside body ending tag after : Text}
      (start : IsStartTag kind name inside) (slash : inside.getLast? ≠ some '/')
      (body_free : EndFree kind body) (isEnd : IsEnd kind tag) (isPrefix : tag <+: ending)
      (through : ThroughEnd ending after) :
      Complete ⟨kind, offset, name, inside, some body, ending⟩ after

/-- An element begins a text but cannot be completed. -/
inductive Breaks (offset : Nat) : Text → MarkupFault → Prop where
  /-- no `>` follows the name of the start tag -/
  | unterminated {kind : ElementKind} {name rest : Text} (name_eq : Text.asciiLower name = kind.tag)
      (endsTagName : endsTagName rest = true) (no_end : '>' ∉ rest) :
      Breaks offset ('<' :: (name ++ rest)) (.unterminated kind offset)
  /-- no end tag follows the start tag, which does not close the element -/
  | unclosed {kind : ElementKind} {name inside rest : Text} (start : IsStartTag kind name inside)
      (slash : inside.getLast? ≠ some '/') (rest_free : EndFree kind rest) :
      Breaks offset ('<' :: (name ++ (inside ++ '>' :: rest))) (.unclosed kind offset)

/-! ### Reading one element -/

theorem isSelfClosed_iff {inside : Text} :
    Element.isSelfClosed inside = true ↔ inside.getLast? = some '/' := by
  simp [Element.isSelfClosed]

theorem take_drop_name {kind : ElementKind} {name : Text} (hname : Text.asciiLower name = kind.tag)
    (rest : Text) :
    (name ++ rest).take kind.tag.length = name ∧ (name ++ rest).drop kind.tag.length = rest := by
  have hlength : name.length = kind.tag.length := by rw [← hname, Text.length_asciiLower]
  exact ⟨List.take_left' hlength, List.drop_left' hlength⟩

theorem elementAt_unterminated {kind : ElementKind} {name rest : Text}
    (hname : Text.asciiLower name = kind.tag) (hend : '>' ∉ rest) (offset : Nat) :
    elementAt offset kind (name ++ rest) = .error (.unterminated kind offset) := by
  unfold elementAt
  simp only [(take_drop_name hname rest).2, Text.cut_eq_none_iff.mpr hend]

section StartTag

variable {kind : ElementKind} {name inside : Text} (start : IsStartTag kind name inside)
include start

theorem elementAt_selfClosed (slash : inside.getLast? = some '/') (offset : Nat) (rest : Text) :
    elementAt offset kind (name ++ (inside ++ '>' :: rest)) =
      .ok (⟨kind, offset, name, inside, none, []⟩, rest) := by
  obtain ⟨htake, hdrop⟩ := take_drop_name start.name_eq (inside ++ '>' :: rest)
  unfold elementAt
  simp only [htake, hdrop, Text.cut_append_cons start.no_end, isSelfClosed_iff.mpr slash, if_true]

theorem elementAt_unclosed (slash : inside.getLast? ≠ some '/') {rest : Text}
    (hrest : EndFree kind rest) (offset : Nat) :
    elementAt offset kind (name ++ (inside ++ '>' :: rest)) = .error (.unclosed kind offset) := by
  obtain ⟨htake, hdrop⟩ := take_drop_name start.name_eq (inside ++ '>' :: rest)
  unfold elementAt
  simp only [htake, hdrop, Text.cut_append_cons start.no_end, if_neg (mt isSelfClosed_iff.mp slash),
    seekEnd_eq_none_iff.mpr hrest]

theorem elementAt_ended (slash : inside.getLast? ≠ some '/') {body found tag : Text}
    (hbody : EndFree kind body) (htag : IsEnd kind tag) (hfound : tag <+: found) (offset : Nat) :
    elementAt offset kind (name ++ (inside ++ '>' :: (body ++ found))) =
      .ok (⟨kind, offset, name, inside, some body, (throughTagEnd found).1⟩,
        (throughTagEnd found).2) := by
  obtain ⟨htake, hdrop⟩ := take_drop_name start.name_eq (inside ++ '>' :: (body ++ found))
  unfold elementAt
  simp only [htake, hdrop, Text.cut_append_cons start.no_end, if_neg (mt isSelfClosed_iff.mp slash),
    seekEnd_eq_some_iff.mpr ⟨rfl, hbody, tag, htag, hfound⟩]

end StartTag

theorem throughTagEnd_of_throughEnd {ending after : Text} (h : ThroughEnd ending after) :
    throughTagEnd (ending ++ after) = (ending, after) := by
  rcases h with ⟨front, hfront, rfl⟩ | ⟨hno, rfl⟩
  · rw [List.append_assoc, List.singleton_append, throughTagEnd_append_cons hfront]
  · rw [List.append_nil, throughTagEnd_of_not_mem hno]

/-- A text is cut at the end of its first tag, and an end tag with which it
begins is in front of that. -/
theorem throughEnd_throughTagEnd {kind : ElementKind} {tag found : Text} (htag : IsEnd kind tag)
    (hstarts : tag <+: found) :
    ThroughEnd (throughTagEnd found).1 (throughTagEnd found).2 ∧
      tag <+: (throughTagEnd found).1 := by
  by_cases hmem : '>' ∈ found
  · obtain ⟨front, rest, rfl, hfront⟩ := List.eq_append_cons_of_mem hmem
    rw [throughTagEnd_append_cons hfront]
    refine ⟨Or.inl ⟨front, hfront, rfl⟩, ?_⟩
    obtain ⟨name, rfl, hname⟩ := htag
    have hno : '>' ∉ '/' :: name := by
      simp only [List.mem_cons, not_or]
      exact ⟨by decide, not_mem_name hname fun kind => by cases kind <;> decide⟩
    have hne : front ≠ [] := by
      rintro rfl
      exact absurd (List.cons_prefix_cons.mp hstarts).1 (by decide)
    exact (prefix_of_prefix_append_cons hno hne hstarts).trans (List.prefix_append _ _)
  · rw [throughTagEnd_of_not_mem hmem]
    exact ⟨Or.inr ⟨hmem, rfl⟩, hstarts⟩

theorem IsStartTag.tag?_eq_some {kind : ElementKind} {name inside : Text}
    (h : IsStartTag kind name inside) (rest : Text) :
    tag? (name ++ (inside ++ '>' :: rest)) = some (kind, inside ++ '>' :: rest) := by
  refine tag?_eq_some_iff.mpr ⟨name, rfl, h.name_eq, ?_⟩
  obtain ⟨c, others, heq, hc⟩ := endsTagName_iff.mp h.endsTagName
  refine endsTagName_iff.mpr ⟨c, others ++ rest, ?_, hc⟩
  rw [← List.cons_append, ← heq, List.append_assoc, List.singleton_append]

/-- A complete element is read as it is. -/
theorem elementAt_of_complete {element : Element} {after : Text} (h : element.Complete after) :
    ∃ found rest, element.text ++ after = '<' :: found ∧ tag? found = some (element.kind, rest) ∧
      elementAt element.offset element.kind found = .ok (element, after) := by
  cases h with
  | @selfClosed kind offset name inside after start slash =>
      exact ⟨name ++ (inside ++ '>' :: after), _, by simp [Element.text], start.tag?_eq_some after,
        elementAt_selfClosed start slash offset after⟩
  | @ended kind offset name inside body ending tag after start slash body_free isEnd
      isPrefix through =>
      refine ⟨name ++ (inside ++ '>' :: (body ++ (ending ++ after))), _, by simp [Element.text],
        start.tag?_eq_some _, ?_⟩
      have hfound : tag <+: ending ++ after := isPrefix.trans (List.prefix_append ending after)
      rw [elementAt_ended start slash body_free isEnd hfound, throughTagEnd_of_throughEnd through]

/-- An element that cannot be completed is refused. -/
theorem elementAt_of_breaks {offset : Nat} {text : Text} {fault : MarkupFault}
    (h : Breaks offset text fault) :
    ∃ found kind rest, text = '<' :: found ∧ tag? found = some (kind, rest) ∧
      elementAt offset kind found = .error fault := by
  cases h with
  | @unterminated kind name rest name_eq endsTagName no_end =>
      exact ⟨name ++ rest, kind, rest, rfl,
        tag?_eq_some_iff.mpr ⟨name, rfl, name_eq, endsTagName⟩,
        elementAt_unterminated name_eq no_end offset⟩
  | @unclosed kind name inside rest start slash rest_free =>
      exact ⟨name ++ (inside ++ '>' :: rest), kind, _, rfl, start.tag?_eq_some rest,
        elementAt_unclosed start slash rest_free offset⟩

/-- What is read where an element begins is complete, and what is refused cannot be completed. -/
theorem elementAt_spec {kind : ElementKind} {found rest : Text}
    (htag : tag? found = some (kind, rest)) (offset : Nat) :
    (∃ element after, elementAt offset kind found = .ok (element, after) ∧ element.offset = offset ∧
        element.Complete after ∧ '<' :: found = element.text ++ after) ∨
      ∃ fault, elementAt offset kind found = .error fault ∧ Breaks offset ('<' :: found) fault := by
  obtain ⟨name, rfl, hname, hrest⟩ := tag?_eq_some_iff.mp htag
  by_cases hend : '>' ∈ rest
  · obtain ⟨inside, rest, rfl, hinside⟩ := List.eq_append_cons_of_mem hend
    have hstart : IsStartTag kind name inside := by
      refine ⟨hname, ?_, hinside⟩
      obtain ⟨c, others, heq, hc⟩ := endsTagName_iff.mp hrest
      refine endsTagName_iff.mpr ?_
      cases inside with
      | nil => exact ⟨'>', [], rfl, Or.inr (Or.inl rfl)⟩
      | cons d inside =>
          cases heq
          exact ⟨_, _, rfl, hc⟩
    by_cases hslash : inside.getLast? = some '/'
    · exact Or.inl ⟨_, _, elementAt_selfClosed hstart hslash offset rest, rfl,
        .selfClosed hstart hslash, by simp [Element.text]⟩
    · cases hseek : seekEnd kind rest with
      | none =>
          have hfree := seekEnd_eq_none_iff.mp hseek
          exact Or.inr ⟨_, elementAt_unclosed hstart hslash hfree offset,
            .unclosed hstart hslash hfree⟩
      | some found =>
          obtain ⟨body, found⟩ := found
          obtain ⟨rfl, hbody, tag, htag, hfound⟩ := seekEnd_eq_some_iff.mp hseek
          obtain ⟨hthrough, hending⟩ := throughEnd_throughTagEnd htag hfound
          refine Or.inl ⟨_, _, elementAt_ended hstart hslash hbody htag hfound offset, rfl,
            .ended hstart hslash hbody htag hending hthrough, ?_⟩
          conv => lhs; rw [← throughTagEnd_append found]
          simp [Element.text]
  · exact Or.inr ⟨_, elementAt_unterminated hname hend offset, .unterminated hname hrest hend⟩

/-! ## Documents -/

/-- A text that begins at a byte offset is cut as a document. -/
inductive IsCut : (offset : Nat) → Text → Document → Prop where
  | rest {offset : Nat} {body : Text} (body_free : ElementFree body) :
      IsCut offset body (.rest body)
  | cons {offset : Nat} {before after : Text} {element : Element} {document : Document}
      (before_free : ElementFree before)
      (offset_eq : element.offset = offset + Text.byteSize before)
      (complete : element.Complete after)
      (isCut : IsCut (element.offset + Text.byteSize element.text) after document) :
      IsCut offset (before ++ (element.text ++ after)) (.cons before element document)
  | broken {offset : Nat} {before text : Text} {fault : MarkupFault}
      (before_free : ElementFree before)
      (breaks : Breaks (offset + Text.byteSize before) text fault) :
      IsCut offset (before ++ text) (.broken before fault)

namespace Document

theorem ofTextAt_of_elementFree {text : Text} (h : ElementFree text) (offset : Nat) :
    ofTextAt offset text = .rest text := by
  rw [ofTextAt]
  split
  · rfl
  · rename_i before found hseek
    rw [seekElement_eq_none_iff.mpr h] at hseek
    cases hseek

theorem ofTextAt_append {before found rest : Text} {kind : ElementKind} (hfree : ElementFree before)
    (htag : tag? found = some (kind, rest)) (offset : Nat) :
    ofTextAt offset (before ++ '<' :: found) =
      match elementAt (offset + Text.byteSize before) kind found with
      | .error fault => .broken before fault
      | .ok (element, after) =>
        .cons before element
          (ofTextAt (offset + Text.byteSize before + Text.byteSize element.text) after) := by
  have hseek : seekElement (before ++ '<' :: found) = some (before, found) :=
    seekElement_eq_some_iff.mpr ⟨rfl, by rw [htag]; rfl, hfree⟩
  rw [ofTextAt]
  split
  · rename_i hnone
    rw [hseek] at hnone
    cases hnone
  · rename_i before' found' hfound
    rw [hseek] at hfound
    cases hfound
    split
    · rename_i hnone
      rw [htag] at hnone
      cases hnone
    · rename_i kind' rest' hkind
      rw [htag] at hkind
      cases hkind
      dsimp only
      split <;> rename_i helement <;> simp only [helement]

theorem isCut_ofTextAt (offset : Nat) (source : Text) :
    IsCut offset source (ofTextAt offset source) := by
  fun_induction ofTextAt offset source with
  | case1 offset text hseek => exact .rest (seekElement_eq_none_iff.mp hseek)
  | case2 offset text before found hseek htag =>
      have hsome := (seekElement_eq_some_iff.mp hseek).2.1
      rw [htag] at hsome
      cases hsome
  | case3 offset text before found hseek start kind rest htag fault helement =>
      obtain ⟨rfl, -, hfree⟩ := seekElement_eq_some_iff.mp hseek
      rcases elementAt_spec htag start with ⟨_, _, hok, -⟩ | ⟨found, hfound, hbreaks⟩
      · rw [helement] at hok
        cases hok
      · rw [helement] at hfound
        cases hfound
        exact .broken hfree hbreaks
  | case4 offset text before found hseek start kind rest htag element after helement ih =>
      obtain ⟨rfl, -, hfree⟩ := seekElement_eq_some_iff.mp hseek
      rcases elementAt_spec htag start with
        ⟨_, _, hok, hoffset, hcomplete, htext⟩ | ⟨fault, hfault, -⟩
      · rw [helement] at hok
        cases hok
        rw [htext]
        exact .cons hfree hoffset hcomplete (hoffset ▸ ih)
      · rw [helement] at hfault
        cases hfault

/-- A text is cut in one way only. -/
theorem eq_ofTextAt_of_isCut {offset : Nat} {source : Text} {document : Document}
    (h : IsCut offset source document) : document = ofTextAt offset source := by
  induction h with
  | rest hfree => rw [ofTextAt_of_elementFree hfree]
  | cons hfree hoffset hcomplete _ ih =>
      obtain ⟨found, rest, htext, htag, helement⟩ := elementAt_of_complete hcomplete
      rw [htext, ofTextAt_append hfree htag, ← hoffset, helement, ih]
  | broken hfree hbreaks =>
      obtain ⟨found, kind, rest, rfl, htag, helement⟩ := elementAt_of_breaks hbreaks
      rw [ofTextAt_append hfree htag, helement]

end Document

/-- Every text is cut in one way. -/
theorem isCut_iff {offset : Nat} {source : Text} {document : Document} :
    IsCut offset source document ↔ document = Document.ofTextAt offset source :=
  ⟨Document.eq_ofTextAt_of_isCut, fun h => h ▸ Document.isCut_ofTextAt offset source⟩

theorem Element.content_node {element : Element} (h : element.node.href = none) :
    element.node.content = some element.content := by
  obtain ⟨href, lang, hnode⟩ := element.exists_node_eq_resource
  rw [hnode] at h ⊢
  obtain rfl : href = none := h
  rfl

end Markup

/-- Parsing loses and repeats nothing.  Every source is cut in one way.  It is parsed exactly if no
element breaks the cut: then its parts are the pieces of the body, one after the other, and the
stylesheets and the scripts of the cut in order, those without a reference with exactly the text
between their tags.  It is refused exactly for the first element that cannot be completed. -/
theorem parseMarkup_by_cut (source : Text) :
    (∃! document, Markup.IsCut 0 source document) ∧
    (∀ parsed, (parseMarkup source).result = .ok parsed ↔
      ∃ document, Markup.IsCut 0 source document ∧ document.fault? = none ∧ document.text = source ∧
        parsed.body = document.body ∧
        parsed.stylesheets = (document.elementsOf .style).map Markup.Element.node ∧
        parsed.scripts = (document.elementsOf .script).map Markup.Element.node) ∧
    (∀ fault, (parseMarkup source).result = .error fault ↔
      ∃ document, Markup.IsCut 0 source document ∧ document.fault? = some fault) ∧
    ∀ element : Markup.Element, element.node.href = none →
      element.node.content = some element.content := by
  have hcut (document : Markup.Document) :
      Markup.IsCut 0 source document ↔ document = Markup.Document.ofText source :=
    Markup.isCut_iff
  obtain ⟨hscripts, hstylesheets⟩ := (Markup.Document.ofText source).parts_eq_map_node
  refine ⟨?_, fun parsed => ?_, fun fault => ?_, fun _ => Markup.Element.content_node⟩
  · simp only [hcut, existsUnique_eq]
  · simp only [hcut, exists_eq_left, parseMarkup_eq_ok_iff, ← hscripts, ← hstylesheets]
    constructor
    · rintro ⟨hfault, rfl⟩
      exact ⟨hfault, Markup.Document.text_ofText source hfault, rfl, rfl, rfl⟩
    · rintro ⟨hfault, -, hbody, hstyles, hscripts'⟩
      cases parsed
      cases hbody
      cases hstyles
      cases hscripts'
      exact ⟨hfault, rfl⟩
  · simp only [hcut, exists_eq_left, parseMarkup_eq_error_iff]

/-- A tag of a longer name is part of the body, and letters of a tag may be in any case. -/
example :
    (parseMarkup "<p><STYLE/>a<styles><script src=b/c>d</Script >e").result = .ok
      { stylesheets := [⟨none, some [], "css"⟩]
        scripts := [⟨some "b/c", none, "js"⟩]
        body := "<p>a<styles>e" } := by
  decide +kernel

end ComponentLoader
