import ComponentLoader.Proofs.Markup.Render
import Mathlib.Data.List.Forall2
set_option autoImplicit false

/-!
# Outlines of templates (SPEC §4.4)

Two sources have the same outline if they are the same but for what their elements hold between the
tags: `SameOutline` goes along the cuts of both at once.  The text of an element may be anything in
which the element does not end, so it may look like markup and like other elements.

Sources with the same outline are cut into documents that are alike (`SameOutline.alike`), although
their elements stand at different offsets.  What a reader takes from alike documents is the same as
long as it takes nothing but the body, the attributes, and which inline scripts are empty.
-/

namespace ComponentLoader.Markup

/-! ## Elements -/

/-- Two elements of one kind have the same attributes, and if they are scripts without a reference,
both of them are empty or none. -/
structure Element.Alike (element element' : Element) : Prop where
  kind_eq : element.kind = element'.kind
  attributes_eq : element.attributes.map Attribute.entry = element'.attributes.map Attribute.entry
  empty_iff : element.kind = .script → element.node.href = none →
    (element.content = [] ↔ element'.content = [])

theorem Element.Alike.refl (element : Element) : element.Alike element :=
  ⟨rfl, rfl, fun _ _ => Iff.rfl⟩

/-- Where a text stands matters for the places of its attributes only. -/
theorem entries_attributes (offset offset' : Nat) (text : Text) :
    (attributes offset text).map Attribute.entry =
      (attributes offset' text).map Attribute.entry := by
  fun_induction attributes offset text generalizing offset' with
  | case1 offset => rw [attributes]
  | case2 offset c rest hspace ih => rw [attributes, dif_pos hspace, ih]
  | case3 offset c rest hspace name value ih =>
      rw [attributes, dif_neg hspace, List.map_cons, List.map_cons, ih]
      rfl

/-- An element at another place. -/
def Element.movedTo (element : Element) (offset : Nat) : Element :=
  { element with offset := offset }

theorem Element.alike_movedTo (element : Element) (offset : Nat) :
    (element.movedTo offset).Alike element :=
  ⟨rfl, entries_attributes _ _ element.attributeText, fun _ _ => Iff.rfl⟩

theorem Element.Complete.movedTo {element : Element} {after : Text} (h : element.Complete after)
    (offset : Nat) : (element.movedTo offset).Complete after := by
  cases h with
  | selfClosed start slash => exact .selfClosed start slash
  | ended start slash body_free isEnd isPrefix through =>
      exact .ended start slash body_free isEnd isPrefix through

theorem Breaks.movedTo {offset : Nat} {text : Text} {fault : MarkupFault}
    (h : Breaks offset text fault) (offset' : Nat) : ∃ fault', Breaks offset' text fault' := by
  cases h with
  | unterminated name_eq endsTagName no_end => exact ⟨_, .unterminated name_eq endsTagName no_end⟩
  | unclosed start slash rest_free => exact ⟨_, .unclosed start slash rest_free⟩

namespace Element.Alike

variable {element element' : Element} (h : element.Alike element')
include h

theorem valueOf?_eq (name : Text) :
    valueOf? element.attributes name = valueOf? element'.attributes name := by
  rw [valueOf?_eq_find?, valueOf?_eq_find?, h.attributes_eq]

/-- Elements that are alike refer to the same file, if to any. -/
theorem href_eq : element.node.href = element'.node.href := by
  unfold node
  rw [← h.kind_eq]
  cases element.kind with
  | style =>
      show (valueOf? element.attributes "href").or (valueOf? element.attributes "src") = _
      rw [h.valueOf?_eq, h.valueOf?_eq]
      rfl
  | script => exact h.valueOf?_eq "src"

theorem symm : element'.Alike element where
  kind_eq := h.kind_eq.symm
  attributes_eq := h.attributes_eq.symm
  empty_iff hkind hinline :=
    (h.empty_iff (h.kind_eq.trans hkind) (h.href_eq.trans hinline)).symm

theorem trans {element'' : Element} (h' : element'.Alike element'') : element.Alike element'' where
  kind_eq := h.kind_eq.trans h'.kind_eq
  attributes_eq := h.attributes_eq.trans h'.attributes_eq
  empty_iff hkind hinline :=
    (h.empty_iff hkind hinline).trans
      (h'.empty_iff (h.kind_eq.symm.trans hkind) (h.href_eq.symm.trans hinline))

/-- Elements that are alike are so wherever they stand. -/
theorem movedTo (offset offset' : Nat) :
    (element.movedTo offset).Alike (element'.movedTo offset') :=
  ((element.alike_movedTo offset).trans h).trans (element'.alike_movedTo offset').symm

end Element.Alike

/-! ## Documents -/

/-- Two documents have the same body and elements that are alike, and either
both are broken or none. -/
structure Document.Alike (document document' : Document) : Prop where
  body_eq : document.body = document'.body
  elements : List.Forall₂ Element.Alike document.elements document'.elements
  fault_iff : document.fault? = none ↔ document'.fault? = none

/-- Two sources are the same but for the texts of their elements and the spelling of the tags around
them; or they are so up to an element that in neither of them can be completed. -/
inductive SameOutline : Text → Text → Prop where
  | rest {body : Text} (body_free : ElementFree body) : SameOutline body body
  | element {before after after' : Text} {element element' : Element}
      (before_free : ElementFree before)
      (complete : element.Complete after) (complete' : element'.Complete after')
      (alike : element.Alike element') (rest : SameOutline after after') :
      SameOutline (before ++ (element.text ++ after)) (before ++ (element'.text ++ after'))
  | broken {before text text' : Text} {fault fault' : MarkupFault}
      (before_free : ElementFree before)
      (breaks : Breaks 0 text fault) (breaks' : Breaks 0 text' fault') :
      SameOutline (before ++ text) (before ++ text')

/-- Every source has its own outline. -/
theorem SameOutline.refl (source : Text) : SameOutline source source := by
  suffices h : ∀ offset document, IsCut offset source document → SameOutline source source from
    h 0 _ (Document.isCut_ofTextAt 0 source)
  intro offset document hcut
  induction hcut with
  | rest body_free => exact .rest body_free
  | cons before_free offset_eq complete isCut ih =>
      exact .element before_free complete complete (.refl _) ih
  | broken before_free breaks =>
      obtain ⟨fault, hbreaks⟩ := breaks.movedTo 0
      exact .broken before_free hbreaks hbreaks

/-- An element that is complete is cut from the source, with what follows it at its own place. -/
theorem ofTextAt_element {before after : Text} {element : Element}
    (before_free : ElementFree before) (complete : element.Complete after) (offset : Nat) :
    Document.ofTextAt offset (before ++ (element.text ++ after)) =
      let moved := element.movedTo (offset + Text.byteSize before)
      .cons before moved (Document.ofTextAt (moved.offset + Text.byteSize moved.text) after) :=
  (isCut_iff.mp (.cons before_free rfl (complete.movedTo _) (Document.isCut_ofTextAt _ after))).symm

theorem ofTextAt_broken {before text : Text} {fault : MarkupFault}
    (before_free : ElementFree before) (breaks : Breaks 0 text fault) (offset : Nat) :
    ∃ fault', Document.ofTextAt offset (before ++ text) = .broken before fault' := by
  obtain ⟨fault', hbreaks⟩ := breaks.movedTo (offset + Text.byteSize before)
  exact ⟨fault', (isCut_iff.mp (.broken before_free hbreaks)).symm⟩

/-- Sources with the same outline are cut into documents that are alike. -/
theorem SameOutline.alike {source source' : Text} (h : SameOutline source source')
    (offset offset' : Nat) :
    (Document.ofTextAt offset source).Alike (Document.ofTextAt offset' source') := by
  induction h generalizing offset offset' with
  | rest body_free =>
      rw [Document.ofTextAt_of_elementFree body_free, Document.ofTextAt_of_elementFree body_free]
      exact ⟨rfl, .nil, Iff.rfl⟩
  | @element before after after' element element' before_free complete complete' alike rest ih =>
      rw [ofTextAt_element before_free complete, ofTextAt_element before_free complete']
      exact ⟨congrArg (before ++ ·) (ih _ _).body_eq, .cons (alike.movedTo _ _) (ih _ _).elements,
        (ih _ _).fault_iff⟩
  | broken before_free breaks breaks' =>
      obtain ⟨fault, hdocument⟩ := ofTextAt_broken before_free breaks offset
      obtain ⟨fault', hdocument'⟩ := ofTextAt_broken before_free breaks' offset'
      rw [hdocument, hdocument']
      exact ⟨rfl, .nil, iff_of_false (by simp [Document.fault?]) (by simp [Document.fault?])⟩

end ComponentLoader.Markup
