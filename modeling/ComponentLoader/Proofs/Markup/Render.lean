import ComponentLoader.Proofs.Markup.Cut
set_option autoImplicit false

/-!
# Written templates (SPEC §4.4)

A `WrittenTemplate` is a template before it is a text: fragments of markup, and between them
elements with a kind, attributes and a content.  Its parts carry what keeps them apart once they are
written down.  A value does not hold the quote around it, a content does not hold the end tag of its
element, and in a fragment no element begins.

Parsing the text of a written template gives its parts back (`parseMarkup_written`).  The parts may
well end in the beginning of a tag, since what is read as a tag begins with its only `<`.
-/

namespace ComponentLoader

namespace Markup

/-! ## Attributes -/

/-- The quotes in which a value can be written. -/
inductive QuoteMark where
  | double
  | single
  deriving DecidableEq, Repr, Inhabited

/-- The character of a quote. -/
def QuoteMark.char : QuoteMark → Char
  | double => '"'
  | single => '\''

/-- A value with the quote that is chosen for it. -/
structure WrittenValue where
  quote : QuoteMark
  text : Text
  no_quote : quote.char ∉ text
  no_end : '>' ∉ text

/-- An attribute as it is written, with or without a value. -/
structure WrittenAttribute where
  name : Text
  value : Option WrittenValue
  name_ne_nil : name ≠ []
  name_ordinary : ∀ c ∈ name, Text.isAsciiSpace c = false ∧ c ∉ "\"'=/>".toList

namespace WrittenAttribute

/-- The text of an attribute, with the blank that parts it from what is in front. -/
def text (a : WrittenAttribute) : Text :=
  ' ' :: a.name ++
    match a.value with
    | none => []
    | some value => '=' :: value.quote.char :: value.text ++ [value.quote.char]

/-- What is read of an attribute beside its place: the name in lower case and the value. -/
def entry (a : WrittenAttribute) : Text × Option Text :=
  (Text.asciiLower a.name, a.value.map WrittenValue.text)

end WrittenAttribute

/-- The name and the value of an attribute. -/
def Attribute.entry (a : Attribute) : Text × Option Text :=
  (a.name, a.value)

theorem valueOf?_eq_find? (given : List Attribute) (name : Text) :
    valueOf? given name = ((given.map Attribute.entry).find? (·.1 = name)).bind Prod.snd := by
  unfold valueOf? findAttribute?
  rw [List.find?_map, Option.bind_map]
  rfl

/-! ### Reading attributes -/

/-- The text of some attributes ends, or goes on with a blank. -/
theorem flatMap_text_cases (given : List WrittenAttribute) :
    given.flatMap WrittenAttribute.text = [] ∨
      ∃ rest, given.flatMap WrittenAttribute.text = ' ' :: rest := by
  cases given with
  | nil => exact Or.inl rfl
  | cons a others => exact Or.inr ⟨_, rfl⟩

/-- A name is read up to a character that cannot belong to it. -/
theorem span_name {name rest : Text} (hname : ∀ c ∈ name, isNameChar c = true)
    (hrest : ∀ c ∈ rest.head?, isNameChar c = false) :
    (name ++ rest).takeWhile isNameChar = name ∧ (name ++ rest).dropWhile isNameChar = rest := by
  rw [List.takeWhile_append_of_pos hname, List.dropWhile_append_of_pos hname]
  cases rest with
  | nil => simp
  | cons c rest => simp [hrest c rfl]

/-- A quoted value is read up to its closing quote. -/
theorem attributeValue_quoted (value : WrittenValue) (rest : Text) :
    attributeValue ('=' :: value.quote.char :: (value.text ++ value.quote.char :: rest)) =
      (some value.text, rest) := by
  have hquote : value.quote.char = '"' ∨ value.quote.char = '\'' := by
    cases value.quote
    · exact Or.inl rfl
    · exact Or.inr rfl
  have hvalue : ∀ c ∈ value.text, (c ≠ value.quote.char) := fun c hmem heq =>
    value.no_quote (heq ▸ hmem)
  simp only [attributeValue, if_pos hquote, Text.upTo_append_cons value.no_quote]
  rw [List.dropWhile_append_of_pos (by simpa using hvalue)]
  simp

theorem attributeValue_of_head {rest : Text} (h : rest.head? ≠ some '=') :
    attributeValue rest = (none, rest) := by
  unfold attributeValue
  split
  · exact absurd rfl h
  · rfl

theorem WrittenAttribute.isNameChar_of_mem (a : WrittenAttribute) {c : Char}
    (h : c ∈ a.name) : isNameChar c = true := by
  obtain ⟨hspace, hother⟩ := a.name_ordinary c h
  have hequals : c ≠ '=' := fun heq => hother (by simp [heq])
  simp [isNameChar, hspace, hequals]

/-- Behind a name, what is written of an attribute is read as its value. -/
theorem WrittenAttribute.read (a : WrittenAttribute) {rest : Text}
    (hrest : rest = [] ∨ ∃ more, rest = ' ' :: more) :
    ∃ found, a.text ++ rest = ' ' :: (a.name ++ found) ∧
      (∀ c ∈ found.head?, isNameChar c = false) ∧
      attributeValue found = (a.value.map WrittenValue.text, rest) := by
  unfold WrittenAttribute.text
  cases a.value with
  | none =>
      refine ⟨rest, by simp, ?_, attributeValue_of_head ?_⟩
      · rcases hrest with rfl | ⟨more, rfl⟩
        · rintro c ⟨⟩
        · rintro c ⟨⟩
          decide
      · rcases hrest with rfl | ⟨more, rfl⟩ <;> simp
  | some value =>
      refine ⟨'=' :: value.quote.char :: (value.text ++ value.quote.char :: rest), by simp, ?_,
        attributeValue_quoted value rest⟩
      rintro c ⟨⟩
      decide

/-- Written attributes are read as they were, with their names in lower case. -/
theorem attributes_flatMap_text (given : List WrittenAttribute) (offset : Nat) :
    (attributes offset (given.flatMap WrittenAttribute.text)).map Attribute.entry =
      given.map WrittenAttribute.entry := by
  induction given generalizing offset with
  | nil => simp [attributes]
  | cons a others ih =>
      obtain ⟨found, htext, hfound, hvalue⟩ := a.read (flatMap_text_cases others)
      obtain ⟨htake, hdrop⟩ := span_name (fun c => a.isNameChar_of_mem) hfound
      obtain ⟨c, name, hname⟩ := List.exists_cons_of_ne_nil a.name_ne_nil
      have hspace : ¬Text.isAsciiSpace c = true := by
        have hc := (a.name_ordinary c (by simp [hname])).1
        simp [hc]
      rw [List.flatMap_cons, htext, attributes, dif_pos (by decide)]
      rw [hname, List.cons_append] at htake hdrop ⊢
      rw [attributes, dif_neg hspace]
      simp only [htake, hdrop, hvalue, List.map_cons, ih]
      rw [Attribute.entry, WrittenAttribute.entry, hname]

/-! ## Elements -/

/-- An element as it is written, with a start tag and an end tag. -/
structure WrittenElement where
  kind : ElementKind
  attributes : List WrittenAttribute
  content : Text
  content_free : EndFree kind content

namespace WrittenElement

/-- The attributes of an element as they are written in its start tag. -/
def inside (element : WrittenElement) : Text :=
  element.attributes.flatMap WrittenAttribute.text

/-- The end tag of an element. -/
def ending (element : WrittenElement) : Text :=
  '<' :: '/' :: element.kind.tag ++ ['>']

/-- The text of an element. -/
def text (element : WrittenElement) : Text :=
  '<' :: element.kind.tag ++ element.inside ++ '>' :: element.content ++ element.ending

/-- The value of the first attribute with a name, whatever the case of its letters. -/
def value? (element : WrittenElement) (name : Text) : Option Text :=
  (element.attributes.find? fun a => Text.asciiLower a.name = name).bind
    fun a => a.value.map WrittenValue.text

/-- Where the text of an element is, if that is another file. -/
def href? (element : WrittenElement) : Option Text :=
  match element.kind with
  | .style => (element.value? "href").or (element.value? "src")
  | .script => element.value? "src"

/-- The language of an element: the one that is given, or else the one that its type or the
extension of its file stands for. -/
def lang (element : WrittenElement) : Text :=
  match element.kind with
  | .style =>
    ((element.value? "lang").or (element.href?.bind extensionOf?)).getD defaultStyleLang
  | .script =>
    (((element.value? "lang").or ((element.value? "type").bind langOfType?)).or
      ((element.href?.bind extensionOf?).filter isTypedScript)).getD defaultScriptLang

/-- What an element says: where its text is, its content if that is the text, and the language. -/
def node (element : WrittenElement) : ResourceNode where
  href := element.href?
  content := if element.href?.isNone then some element.content else none
  lang := element.lang

/-- An element as it stands at a byte offset of a source. -/
def placed (offset : Nat) (element : WrittenElement) : Element :=
  ⟨element.kind, offset, element.kind.tag, element.inside, some element.content, element.ending⟩

@[simp]
theorem text_placed (offset : Nat) (element : WrittenElement) :
    (element.placed offset).text = element.text := by
  simp [placed, Element.text, text]

end WrittenElement

/-! ### Start tags -/

theorem WrittenAttribute.not_mem_text (a : WrittenAttribute) : '>' ∉ a.text := by
  have hname : '>' ∉ a.name := fun hmem => (a.name_ordinary _ hmem).2 (by decide)
  unfold text
  cases a.value with
  | none => simpa using hname
  | some value =>
      have hquote : '>' ≠ value.quote.char := by cases value.quote <;> decide
      simpa [hquote, hname] using value.no_end

/-- An attribute ends with its name or with a quote. -/
theorem WrittenAttribute.getLast?_text (a : WrittenAttribute) : a.text.getLast? ≠ some '/' := by
  unfold text
  cases a.value with
  | none =>
      intro h
      rw [List.append_nil, List.getLast?_cons_of_ne_nil a.name_ne_nil] at h
      exact (a.name_ordinary _ (List.mem_of_getLast? h)).2 (by decide)
  | some value =>
      show ((' ' :: a.name) ++
        (('=' :: value.quote.char :: value.text) ++ [value.quote.char])).getLast? ≠ some '/'
      rw [← List.append_assoc, List.getLast?_concat]
      cases value.quote <;> decide

namespace WrittenElement

variable (element : WrittenElement)

theorem not_mem_inside : '>' ∉ element.inside := by
  intro hmem
  obtain ⟨a, -, hmem⟩ := List.mem_flatMap.mp hmem
  exact a.not_mem_text hmem

theorem getLast?_inside : element.inside.getLast? ≠ some '/' := by
  unfold inside
  induction element.attributes with
  | nil => simp
  | cons a others ih =>
      rw [List.flatMap_cons, List.getLast?_append]
      cases hlast : (others.flatMap WrittenAttribute.text).getLast? with
      | none => simpa using a.getLast?_text
      | some c =>
          rw [hlast] at ih
          simpa using ih

theorem isStartTag : IsStartTag element.kind element.kind.tag element.inside where
  name_eq := by cases element.kind <;> decide
  endsTagName := by
    rcases flatMap_text_cases element.attributes with hnone | ⟨rest, hrest⟩
    · rw [inside, hnone]
      rfl
    · rw [inside, hrest]
      rfl
  no_end := element.not_mem_inside

theorem complete_placed (offset : Nat) (after : Text) : (element.placed offset).Complete after := by
  refine .ended element.isStartTag element.getLast?_inside element.content_free
    ⟨element.kind.tag, rfl, by cases element.kind <;> decide⟩ (List.prefix_append _ ['>'])
    (Or.inl ⟨'<' :: '/' :: element.kind.tag, ?_, rfl⟩)
  cases element.kind <;> decide

/-! ### What an element says -/

theorem valueOf?_placed (offset : Nat) (name : Text) :
    valueOf? (element.placed offset).attributes name = element.value? name := by
  have htext : (element.placed offset).attributeText = element.inside :=
    if_neg (mt isSelfClosed_iff.mp element.getLast?_inside)
  rw [valueOf?_eq_find?, Element.attributes, htext, inside, attributes_flatMap_text,
    List.find?_map, Option.bind_map]
  rfl

theorem node_placed (offset : Nat) : (element.placed offset).node = element.node := by
  have hvalue := element.valueOf?_placed offset
  have hcontent : (element.placed offset).content = element.content := rfl
  have hkind : (element.placed offset).kind = element.kind := rfl
  unfold Element.node node lang href?
  rw [hkind]
  cases element.kind with
  | style => simp only [Element.stylesheet, Element.resource, hvalue, hcontent]
  | script => simp only [Element.script, Element.resource, hvalue, hcontent]

end WrittenElement

/-! ## Templates -/

/-- A template as it is written: fragments of markup with an element between each two of them. -/
inductive WrittenTemplate where
  | rest (fragment : Text) (fragment_free : ElementFree fragment)
  | cons (fragment : Text) (fragment_free : ElementFree fragment) (element : WrittenElement)
      (after : WrittenTemplate)

namespace WrittenTemplate

/-- The text of a template. -/
def text : WrittenTemplate → Text
  | rest fragment _ => fragment
  | cons fragment _ element after => fragment ++ (element.text ++ after.text)

/-- The fragments, one after the other. -/
def body : WrittenTemplate → Text
  | rest fragment _ => fragment
  | cons fragment _ _ after => fragment ++ after.body

/-- The elements in order. -/
def elements : WrittenTemplate → List WrittenElement
  | rest _ _ => []
  | cons _ _ element after => element :: after.elements

/-- What the elements of a kind say, in order. -/
def nodesOf (kind : ElementKind) (template : WrittenTemplate) : List ResourceNode :=
  (template.elements.filter fun element => element.kind = kind).map WrittenElement.node

/-- The parts of a template. -/
def parts (template : WrittenTemplate) : ParsedTemplate where
  stylesheets := template.nodesOf .style
  scripts := template.nodesOf .script
  body := template.body

/-- A template that begins at a byte offset, cut at its elements. -/
def document (offset : Nat) : WrittenTemplate → Document
  | rest fragment _ => .rest fragment
  | cons fragment _ element after =>
    .cons fragment (element.placed (offset + Text.byteSize fragment))
      (after.document (offset + Text.byteSize fragment + Text.byteSize element.text))

theorem isCut_document (template : WrittenTemplate) (offset : Nat) :
    IsCut offset template.text (template.document offset) := by
  induction template generalizing offset with
  | rest fragment fragment_free => exact .rest fragment_free
  | cons fragment fragment_free element after ih =>
      have htext := element.text_placed (offset + Text.byteSize fragment)
      rw [text, document, ← htext]
      exact .cons fragment_free rfl (element.complete_placed _ _) (ih _)

theorem fault?_document (template : WrittenTemplate) (offset : Nat) :
    (template.document offset).fault? = none := by
  induction template generalizing offset with
  | rest fragment fragment_free => rfl
  | cons fragment fragment_free element after ih => exact ih _

theorem body_document (template : WrittenTemplate) (offset : Nat) :
    (template.document offset).body = template.body := by
  induction template generalizing offset with
  | rest fragment fragment_free => rfl
  | cons fragment fragment_free element after ih => exact congrArg (fragment ++ ·) (ih _)

theorem map_node_document (template : WrittenTemplate) (kind : ElementKind) (offset : Nat) :
    ((template.document offset).elementsOf kind).map Element.node = template.nodesOf kind := by
  unfold Document.elementsOf nodesOf
  induction template generalizing offset with
  | rest fragment fragment_free => rfl
  | cons fragment fragment_free element after ih =>
      have hkind (offset : Nat) : (element.placed offset).kind = element.kind := rfl
      simp only [document, Document.elements, elements, List.filter_cons, hkind]
      split
      · rw [List.map_cons, List.map_cons, ih, element.node_placed]
      · exact ih _

theorem parts_document (template : WrittenTemplate) (offset : Nat) :
    (template.document offset).parts = template.parts := by
  obtain ⟨hscripts, hstylesheets⟩ := (template.document offset).parts_eq_map_node
  rw [map_node_document] at hscripts hstylesheets
  rw [parts, ← hscripts, ← hstylesheets, ← template.body_document offset]
  rfl

end WrittenTemplate

end Markup

/-- Parsing undoes writing: the text of a template is parsed to its fragments, one after the other,
and to one node for each of its elements in order. -/
theorem parseMarkup_written (template : Markup.WrittenTemplate) :
    (parseMarkup template.text).result = .ok template.parts := by
  have hcut : template.document 0 = Markup.Document.ofText template.text :=
    Markup.Document.eq_ofTextAt_of_isCut (template.isCut_document 0)
  rw [parseMarkup_eq_ok_iff, ← hcut]
  exact ⟨template.fault?_document 0, (template.parts_document 0).symm⟩

/-- Fragments and contents may end in the middle of a tag, and the first
attribute of a name counts. -/
theorem parseMarkup_written_twice_lang :
    (parseMarkup "a<sty<style LANG='b' lang=\"c\" d></styl</style>e<".toList).result =
      .ok { stylesheets := [⟨none, some "</styl", "b"⟩], scripts := [], body := "a<stye<" } := by
  let element : Markup.WrittenElement :=
    ⟨.style,
      [⟨"LANG", some ⟨.single, "b", by decide, by decide⟩, by decide, by simp [Text.isAsciiSpace]⟩,
        ⟨"lang", some ⟨.double, "c", by decide, by decide⟩, by decide, by simp [Text.isAsciiSpace]⟩,
        ⟨"d", none, by decide, by simp [Text.isAsciiSpace]⟩],
      "</styl", Markup.seekEnd_eq_none_iff.mp (by decide)⟩
  let template : Markup.WrittenTemplate :=
    .cons "a<sty" (Markup.seekElement_eq_none_iff.mp (by decide)) element
      (.rest "e<" (Markup.seekElement_eq_none_iff.mp (by decide)))
  have htext : template.text = "a<sty<style LANG='b' lang=\"c\" d></styl</style>e<".toList := by
    decide
  rw [← htext, parseMarkup_written template]
  decide

end ComponentLoader
