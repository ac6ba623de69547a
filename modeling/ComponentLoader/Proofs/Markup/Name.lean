import ComponentLoader.Markup.Resource
import ComponentLoader.Proofs.Markup.Cut
import ComponentLoader.Proofs.Text.Space
set_option autoImplicit false

/-!
# Where the names of attributes stand (SPEC §4.4)

A text in a start tag is a row of attributes, each a name and what gives it its value.  `NameAt`
tells the names from everything else in the text, so that a word in a value is none, and the
offset of an attribute is the number of bytes in front of its name (`exists_nameAt`).  With the
cut of the source around it, this says which bytes of a source are the name of an attribute of an
element (`IsAttributeName`).
-/

namespace ComponentLoader.Markup

/-! ## Attributes -/

/-- A name at the front of a text: all of the characters that can belong to one. -/
structure IsName (name rest : Text) : Prop where
  start : ∃ c ∈ (name ++ rest).head?, Text.isAsciiSpace c = false
  all : ∀ c ∈ name, isNameChar c = true
  maximal : ∀ c ∈ rest.head?, isNameChar c = false

/-- What stands behind a name and gives it a value: nothing, or an equals sign with a text in
quotes or with a word. -/
inductive IsValue : (written rest : Text) → Prop where
  | absent {rest : Text} (noEquals : rest.head? ≠ some '=') : IsValue [] rest
  | quoted {quote : Char} {body rest : Text} (isQuote : quote = '"' ∨ quote = '\'')
      (body_free : quote ∉ body) : IsValue ('=' :: quote :: (body ++ [quote])) rest
  /-- the quote is not closed -/
  | unended {quote : Char} {body : Text} (isQuote : quote = '"' ∨ quote = '\'')
      (body_free : quote ∉ body) : IsValue ('=' :: quote :: body) []
  | word {word rest : Text} (noQuote : ∀ c ∈ word.head?, ¬(c = '"' ∨ c = '\''))
      (word_free : ∀ c ∈ word, Text.isAsciiSpace c = false)
      (maximal : ∀ c ∈ rest.head?, Text.isAsciiSpace c = true) : IsValue ('=' :: word) rest

/-- A name stands behind `lead` in a text of attributes and in front of `rest`. -/
inductive NameAt : (lead name rest : Text) → Prop where
  | first {name rest : Text} (isName : IsName name rest) : NameAt [] name rest
  | blank {c : Char} {lead name rest : Text} (isBlank : Text.isAsciiSpace c = true)
      (nameAt : NameAt lead name rest) : NameAt (c :: lead) name rest
  | behind {other written lead name rest : Text}
      (isName : IsName other (written ++ (lead ++ (name ++ rest))))
      (isValue : IsValue written (lead ++ (name ++ rest))) (nameAt : NameAt lead name rest) :
      NameAt (other ++ (written ++ lead)) name rest

theorem NameAt.isName {lead name rest : Text} (h : NameAt lead name rest) : IsName name rest := by
  induction h with
  | first isName => exact isName
  | blank _ _ ih => exact ih
  | behind _ _ _ ih => exact ih

/-- What is read as a value is one. -/
theorem exists_isValue (text : Text) :
    ∃ written, text = written ++ (attributeValue text).2 ∧
      IsValue written (attributeValue text).2 := by
  fun_cases attributeValue text with
  | case1 c quoted isQuote =>
      dsimp only
      by_cases hmem : c ∈ quoted
      · obtain ⟨body, rest, rfl, hbody⟩ := List.eq_append_cons_of_mem hmem
        have hdrop : (body ++ c :: rest).dropWhile (· ≠ c) = c :: rest := by
          have hbefore : ∀ d ∈ body, decide (d ≠ c) = true := fun d hd =>
            decide_eq_true (ne_of_mem_of_not_mem hd hbody)
          rw [List.dropWhile_append_of_pos hbefore, List.dropWhile_cons_of_neg (by simp)]
        rw [hdrop]
        exact ⟨'=' :: c :: (body ++ [c]), by simp, .quoted isQuote hbody⟩
      · have hdrop : quoted.dropWhile (· ≠ c) = [] :=
          List.dropWhile_eq_nil_iff.mpr fun d hd =>
          decide_eq_true (ne_of_mem_of_not_mem hd hmem)
        rw [hdrop]
        exact ⟨'=' :: c :: quoted, by simp, .unended isQuote hmem⟩
  | case2 c quoted noQuote =>
      dsimp only
      have hwhole :=
        List.takeWhile_append_dropWhile (p := (!Text.isAsciiSpace ·)) (l := c :: quoted)
      refine ⟨'=' :: (c :: quoted).takeWhile (!Text.isAsciiSpace ·), ?_, .word ?_ ?_ ?_⟩
      · rw [List.cons_append, hwhole]
      · intro d hd
        have hfirst : d ∈ (c :: quoted).head? := by
          rw [← hwhole, List.head?_append, hd]
          rfl
        cases hfirst
        exact noQuote
      · intro d hd
        simpa using List.mem_takeWhile_imp hd
      · intro d hd
        simpa using Text.eq_false_of_head?_dropWhile hd
  | case3 =>
      have hword : IsValue ('=' :: []) [] := .word (by simp) (by simp) (by simp)
      exact ⟨['='], rfl, hword⟩
  | case4 text noEquals =>
      refine ⟨[], rfl, .absent fun hhead => ?_⟩
      obtain ⟨rest, rfl⟩ := List.head?_eq_some_iff.mp hhead
      exact noEquals rest rfl

/-- The first name of a text that does not begin with a blank. -/
theorem isName_takeWhile {c : Char} (hc : Text.isAsciiSpace c = false) (rest : Text) :
    IsName ((c :: rest).takeWhile isNameChar) ((c :: rest).dropWhile isNameChar) where
  start := ⟨c, by rw [List.takeWhile_append_dropWhile]; rfl, hc⟩
  all _ hd := List.mem_takeWhile_imp hd
  maximal _ hd := Text.eq_false_of_head?_dropWhile hd

/-- An attribute is given in lower case and with the place of its name.  The induction is on the
attributes of the text: a blank and a whole attribute are what can stand in front of a name. -/
theorem exists_nameAt {offset : Nat} {text : Text} {a : Attribute}
    (h : a ∈ attributes offset text) :
    ∃ lead name rest, text = lead ++ (name ++ rest) ∧ NameAt lead name rest ∧
      a.name = Text.asciiLower name ∧ a.offset = offset + Text.byteSize lead := by
  fun_induction attributes offset text with
  | case1 => cases h
  | case2 offset c rest isBlank ih =>
      obtain ⟨lead, name, more, rfl, hname, hlower, hoffset⟩ := ih h
      refine ⟨c :: lead, name, more, rfl, .blank isBlank hname, hlower, ?_⟩
      rw [hoffset, Text.byteSize_cons, Nat.add_assoc]
  | case3 offset c rest notBlank name value ih =>
      have hname := isName_takeWhile (by simpa using notBlank) rest
      have hwhole := List.takeWhile_append_dropWhile (p := isNameChar) (l := c :: rest)
      rcases List.mem_cons.mp h with rfl | h
      · exact ⟨[], name, (c :: rest).dropWhile isNameChar, hwhole.symm, .first hname, rfl, rfl⟩
      · obtain ⟨lead, found, more, hrest, hfound, hlower, hoffset⟩ := ih h
        obtain ⟨written, hwritten, hvalue⟩ := exists_isValue ((c :: rest).dropWhile isNameChar)
        have hwritten : (c :: rest).dropWhile isNameChar = written ++ value.2 := hwritten
        have hvalue : IsValue written value.2 := hvalue
        have htext : c :: rest = name ++ (written ++ value.2) := by
          rw [← hwritten]
          exact hwhole.symm
        rw [hwritten] at hname
        refine ⟨name ++ (written ++ lead), found, more, ?_, ?_, hlower, ?_⟩
        · rw [htext, hrest]
          simp
        · rw [hrest] at hname hvalue
          exact .behind hname hvalue hfound
        · have hsize := congrArg Text.byteSize htext
          simp only [Text.byteSize_append] at hsize ⊢
          rw [hoffset]
          omega

/-! ## Elements -/

theorem IsStartTag.byteSize_name {kind : ElementKind} {name inside : Text}
    (h : IsStartTag kind name inside) : Text.byteSize name = kind.tag.length := by
  rw [← Text.byteSize_asciiLower, h.name_eq]
  cases kind <;> rfl

theorem Element.Complete.exists_isStartTag {element : Element} {after : Text}
    (h : element.Complete after) : IsStartTag element.kind element.tag element.inside := by
  cases h with
  | selfClosed start slash => exact start
  | ended start slash body_free isEnd isPrefix through => exact start

/-- The attributes of an element stand behind the name of its tag. -/
theorem Element.exists_text_eq (element : Element) :
    ∃ more, element.text = '<' :: (element.tag ++ (element.attributeText ++ more)) := by
  obtain ⟨slash, hinside⟩ : ∃ slash, element.inside = element.attributeText ++ slash := by
    unfold attributeText
    split
    · rename_i hclosed
      obtain ⟨front, hfront⟩ := List.getLast?_eq_some_iff.mp (isSelfClosed_iff.mp hclosed)
      exact ⟨['/'], by rw [hfront, List.dropLast_concat]⟩
    · exact ⟨[], (List.append_nil _).symm⟩
  refine ⟨slash ++ '>' :: (element.body.getD [] ++ element.ending), ?_⟩
  unfold text
  rw [hinside]
  simp

/-- In a source that is cut at its elements, `name` is the name of an attribute in the start tag of
an element of some kind, between `before` and `after`. -/
def IsAttributeName (source : Text) (kind : ElementKind) (before name after : Text) : Prop :=
  ∃ document element front lead rest back, IsCut 0 source document ∧ element ∈ document.elements ∧
    element.kind = kind ∧ source = front ++ (element.text ++ back) ∧
    element.offset = Text.byteSize front ∧ element.attributeText = lead ++ (name ++ rest) ∧
    NameAt lead name rest ∧ before = front ++ '<' :: (element.tag ++ lead) ∧
    source = before ++ (name ++ after)

theorem IsCut.exists_of_mem {offset : Nat} {source : Text} {document : Document}
    (h : IsCut offset source document) {element : Element} (hmem : element ∈ document.elements) :
    ∃ front back, source = front ++ (element.text ++ back) ∧
      element.offset = offset + Text.byteSize front ∧ element.Complete back := by
  induction h with
  | rest _ => cases hmem
  | @cons offset before after first document _ offset_eq complete _ ih =>
      rcases List.mem_cons.mp hmem with rfl | hmem
      · exact ⟨before, after, rfl, offset_eq, complete⟩
      · obtain ⟨front, back, rfl, hoffset, hcomplete⟩ := ih hmem
        refine ⟨before ++ (first.text ++ front), back, by simp, ?_, hcomplete⟩
        rw [hoffset, offset_eq]
        simp only [Text.byteSize_append]
        omega
  | broken _ _ => cases hmem

/-- A source that is not cut to its end stops at an element that cannot be completed. -/
theorem IsCut.exists_of_fault? {offset : Nat} {source : Text} {document : Document}
    (h : IsCut offset source document) {fault : MarkupFault}
    (hfault : document.fault? = some fault) :
    ∃ front back, source = front ++ back ∧ Breaks (offset + Text.byteSize front) back fault := by
  induction h with
  | rest _ => cases hfault
  | @cons offset before after first document _ offset_eq _ _ ih =>
      obtain ⟨front, back, rfl, hbreaks⟩ := ih hfault
      refine ⟨before ++ (first.text ++ front), back, by simp, ?_⟩
      rw [offset_eq] at hbreaks
      simpa only [Text.byteSize_append, Nat.add_assoc] using hbreaks
  | @broken offset before text found _ breaks =>
      cases hfault
      exact ⟨before, text, rfl, breaks⟩

theorem Breaks.exists_eq_cons {offset : Nat} {text : Text} {fault : MarkupFault}
    (h : Breaks offset text fault) : ∃ rest, text = '<' :: rest ∧ fault.offset = offset := by
  cases h with
  | unterminated => exact ⟨_, rfl, rfl⟩
  | unclosed => exact ⟨_, rfl, rfl⟩

/-! ## Warnings -/

/-- A warning about an element is about the name of one of its attributes. -/
theorem Element.Complete.exists_of_warning? {element : Element} {back : Text}
    (h : element.Complete back) {warning : TemplateWarning}
    (hwarning : element.warning? = some warning) :
    ∃ lead name rest, element.attributeText = lead ++ (name ++ rest) ∧ NameAt lead name rest ∧
      Text.asciiLower name = Element.discouraged element.kind ∧
      warning = ⟨Element.advice element.kind,
        element.offset + Text.byteSize ('<' :: (element.tag ++ lead))⟩ := by
  obtain ⟨a, hfind, rfl⟩ := Option.map_eq_some_iff.mp hwarning
  obtain ⟨lead, name, rest, htext, hname, hlower, hoffset⟩ :=
    exists_nameAt (List.mem_of_find?_eq_some hfind)
  have hfound : a.name = Element.discouraged element.kind := by simpa using List.find?_some hfind
  refine ⟨lead, name, rest, htext, hname, hlower.symm.trans hfound, ?_⟩
  have hsize : '<'.utf8Size = 1 := rfl
  rw [hoffset, Element.attributeOffset, Text.byteSize_cons, Text.byteSize_append,
    h.exists_isStartTag.byteSize_name, hsize]
  simp only [Nat.add_assoc]

theorem IsCut.exists_isAttributeName {source : Text} {document : Document}
    (h : IsCut 0 source document) {warning : TemplateWarning} (hmem : warning ∈ document.warnings) :
    ∃ kind before name after, IsAttributeName source kind before name after ∧
      Text.asciiLower name = Element.discouraged kind ∧
      warning = ⟨Element.advice kind, Text.byteSize before⟩ := by
  obtain ⟨element, helement, hwarning⟩ := List.mem_filterMap.mp hmem
  obtain ⟨front, back, hsource, hoffset, hcomplete⟩ := h.exists_of_mem helement
  rw [Nat.zero_add] at hoffset
  obtain ⟨lead, name, rest, htext, hname, hlower, rfl⟩ := hcomplete.exists_of_warning? hwarning
  obtain ⟨more, hmore⟩ := element.exists_text_eq
  refine ⟨element.kind, front ++ '<' :: (element.tag ++ lead), name, rest ++ (more ++ back),
    ⟨document, element, front, lead, rest, back, h, helement, rfl, hsource, hoffset, htext, hname,
    rfl,
      ?_⟩, hlower, ?_⟩
  · rw [hsource, hmore, htext]
    simp
  · rw [hoffset, ← Text.byteSize_append]

/-! ## Order -/

theorem IsCut.le_offset {offset : Nat} {source : Text} {document : Document}
    (h : IsCut offset source document) {element : Element} (hmem : element ∈ document.elements) :
    offset ≤ element.offset := by
  obtain ⟨front, back, -, hoffset, -⟩ := h.exists_of_mem hmem
  omega

/-- A warning about an element is at a place inside it. -/
theorem Element.Complete.offset_of_warning? {element : Element} {back : Text}
    (h : element.Complete back) {warning : TemplateWarning}
    (hwarning : element.warning? = some warning) :
    element.offset ≤ warning.offset ∧
      warning.offset < element.offset + Text.byteSize element.text := by
  obtain ⟨lead, name, rest, htext, -, hlower, rfl⟩ := h.exists_of_warning? hwarning
  obtain ⟨more, hmore⟩ := element.exists_text_eq
  have hname : 0 < Text.byteSize name := by
    rw [← Text.byteSize_asciiLower, hlower]
    cases element.kind <;> decide
  refine ⟨Nat.le_add_right _ _, Nat.add_lt_add_left ?_ _⟩
  rw [hmore, htext]
  simp only [Text.byteSize_cons, Text.byteSize_append]
  omega

/-- The warnings about a source are in the order of the places that they are about. -/
theorem IsCut.pairwise_warnings {offset : Nat} {source : Text} {document : Document}
    (h : IsCut offset source document) :
    document.warnings.Pairwise fun first second => first.offset < second.offset := by
  induction h with
  | rest _ => exact .nil
  | @cons offset before after element document _ offset_eq complete isCut ih =>
      unfold Document.warnings at ih ⊢
      rw [Document.elements]
      cases hwarning : element.warning? with
      | none => rwa [List.filterMap_cons_none hwarning]
      | some warning =>
          rw [List.filterMap_cons_some hwarning]
          refine List.pairwise_cons.mpr ⟨fun later hmem => ?_, ih⟩
          obtain ⟨next, hnext, hlater⟩ := List.mem_filterMap.mp hmem
          obtain ⟨_, back, _, _, hcomplete⟩ := isCut.exists_of_mem hnext
          have hle := isCut.le_offset hnext
          have hfirst := (complete.offset_of_warning? hwarning).2
          have hsecond := (hcomplete.offset_of_warning? hlater).1
          omega
  | broken _ _ => exact .nil

end ComponentLoader.Markup
