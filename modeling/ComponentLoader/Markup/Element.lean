import ComponentLoader.Text.Space
set_option autoImplicit false

/-!
# Elements of a template (SPEC §4.4)

A template is a markup body in which style and script elements stand.  `Document.ofText` cuts a
source at these elements.  An element runs from its start tag through the end tag of the same name,
or is closed in its start tag; what is between the two tags is not looked at.

The texts of the pieces, one after the other, are the source (`text_ofText`).
-/

namespace ComponentLoader.Markup

/-- The two kinds of elements that are not part of the markup body. -/
inductive ElementKind where
  | style
  | script
  deriving DecidableEq, Repr, Inhabited

/-- The name of the tag of a kind. -/
def ElementKind.tag : ElementKind → Text
  | style => "style"
  | script => "script"

/-- An element as it stands in a source. -/
structure Element where
  kind : ElementKind
  /-- the byte offset of the element -/
  offset : Nat
  /-- the name of its start tag as spelled -/
  tag : Text
  /-- the text of its start tag after the name, up to the end of the tag -/
  inside : Text
  /-- the text between its tags; none for an element that is closed in its start tag -/
  body : Option Text
  /-- its end tag, or what there is of it at the end of the source -/
  ending : Text
  deriving DecidableEq, Repr, Inhabited

namespace Element

/-- The text of an element. -/
def text (element : Element) : Text :=
  '<' :: element.tag ++ element.inside ++ '>' :: element.body.getD [] ++ element.ending

/-- The text between the tags of an element. -/
def content (element : Element) : Text :=
  element.body.getD []

/-- Whether the inside of a start tag closes the element. -/
def isSelfClosed (inside : Text) : Bool :=
  inside.getLast? == some '/'

/-- The text that holds the attributes of an element. -/
def attributeText (element : Element) : Text :=
  if isSelfClosed element.inside then element.inside.dropLast else element.inside

/-- The byte offset of the text that holds the attributes. -/
def attributeOffset (element : Element) : Nat :=
  element.offset + 1 + element.kind.tag.length

end Element

/-- Why a source cannot be cut into elements: an element that does not end, and its byte offset. -/
inductive MarkupFault where
  /-- the start tag does not end -/
  | unterminated (kind : ElementKind) (offset : Nat)
  /-- there is no end tag -/
  | unclosed (kind : ElementKind) (offset : Nat)
  deriving DecidableEq, Repr, Inhabited

namespace MarkupFault

/-- The byte offset of the element that does not end. -/
def offset : MarkupFault → Nat
  | unterminated _ offset => offset
  | unclosed _ offset => offset

/-- The wording of a fault. -/
def message : MarkupFault → Text
  | unterminated kind _ => "unterminated <" ++ kind.tag ++ "> start tag"
  | unclosed kind _ => "unclosed <" ++ kind.tag ++ "> element"

end MarkupFault

/-- A source cut at its elements. -/
inductive Document where
  /-- the last piece of the body -/
  | rest (body : Text)
  /-- a piece of the body, an element and what follows it -/
  | cons (before : Text) (element : Element) (after : Document)
  /-- a piece of the body before an element that does not end -/
  | broken (before : Text) (fault : MarkupFault)
  deriving DecidableEq, Repr, Inhabited

/-! ## Finding elements -/

/-- A text after `lead`, which stands in lower case, whatever the case of
the letters in the text. -/
def afterLower? : (lead text : Text) → Option Text
  | [], text => some text
  | _ :: _, [] => none
  | a :: lead, b :: text => if a = b.toLower then afterLower? lead text else none

/-- Whether a text continues a tag after its name. -/
def endsTagName : Text → Bool
  | c :: _ => Text.isAsciiSpace c || c = '>' || c = '/'
  | [] => false

/-- The text after the name of the tag of a kind, if a text begins with it. -/
def afterTag? (kind : ElementKind) (text : Text) : Option Text :=
  (afterLower? kind.tag text).bind fun after => if endsTagName after then some after else none

/-- The kind of the tag whose name begins a text, and the text after the name. -/
def tag? (text : Text) : Option (ElementKind × Text) :=
  match afterTag? .style text with
  | some after => some (.style, after)
  | none => (afterTag? .script text).map fun after => (.script, after)

/-- A piece of the body before the first element, and the text after the `<` of the element. -/
def seekElement : Text → Option (Text × Text)
  | [] => none
  | c :: rest =>
    if c = '<' ∧ (tag? rest).isSome then some ([], rest)
    else (seekElement rest).map fun (before, found) => (c :: before, found)

/-- The text before the first end tag of a kind, and the text from that tag on. -/
def seekEnd (kind : ElementKind) : Text → Option (Text × Text)
  | [] => none
  | c :: rest =>
    if (afterLower? ('<' :: '/' :: kind.tag) (c :: rest)).isSome then some ([], c :: rest)
    else (seekEnd kind rest).map fun (body, found) => (c :: body, found)

/-- A text cut after its first `>`, or at its end. -/
def throughTagEnd : Text → Text × Text
  | [] => ([], [])
  | c :: rest =>
    if c = '>' then ([c], rest)
    else ((c :: (throughTagEnd rest).1), (throughTagEnd rest).2)

/-- The element whose `<` stands at a byte offset, before a text that begins with the name of its
tag, and the text after the element. -/
def elementAt (offset : Nat) (kind : ElementKind) (text : Text) :
    Except MarkupFault (Element × Text) :=
  let tag := text.take kind.tag.length
  match Text.cut '>' (text.drop kind.tag.length) with
  | none => .error (.unterminated kind offset)
  | some (inside, rest) =>
    if Element.isSelfClosed inside then .ok (⟨kind, offset, tag, inside, none, []⟩, rest)
    else
      match seekEnd kind rest with
      | none => .error (.unclosed kind offset)
      | some (body, found) =>
        let (ending, after) := throughTagEnd found
        .ok (⟨kind, offset, tag, inside, some body, ending⟩, after)

/-! ## Nothing is lost -/

theorem seekElement_eq_some {text before found : Text}
    (h : seekElement text = some (before, found)) :
    text = before ++ '<' :: found ∧ (tag? found).isSome = true := by
  induction text generalizing before with
  | nil => simp [seekElement] at h
  | cons c rest ih =>
    simp only [seekElement] at h
    split at h
    · rename_i hc
      cases h
      exact ⟨by simp [hc.1], hc.2⟩
    · simp only [Option.map_eq_some_iff, Prod.exists, Prod.mk.injEq] at h
      obtain ⟨b, f, hseek, rfl, rfl⟩ := h
      obtain ⟨htext, htag⟩ := ih hseek
      exact ⟨by simp [htext], htag⟩

theorem seekEnd_eq_some {kind : ElementKind} {text body found : Text}
    (h : seekEnd kind text = some (body, found)) : text = body ++ found := by
  induction text generalizing body with
  | nil => simp [seekEnd] at h
  | cons c rest ih =>
    simp only [seekEnd] at h
    split at h
    · cases h
      rfl
    · simp only [Option.map_eq_some_iff, Prod.exists, Prod.mk.injEq] at h
      obtain ⟨b, f, hseek, rfl, rfl⟩ := h
      simp [ih hseek]

theorem throughTagEnd_append (text : Text) :
    (throughTagEnd text).1 ++ (throughTagEnd text).2 = text := by
  induction text with
  | nil => rfl
  | cons c rest ih =>
    simp only [throughTagEnd]
    split
    · rfl
    · simp [ih]

/-- An element and the text after it are the text that was read. -/
theorem elementAt_eq_ok {offset : Nat} {kind : ElementKind} {text after : Text} {element : Element}
    (h : elementAt offset kind text = .ok (element, after)) :
    element.text ++ after = '<' :: text := by
  unfold elementAt at h
  split at h
  · cases h
  · rename_i inside rest hcut
    have hcut := Text.cut_eq_some hcut
    have htext : text = text.take kind.tag.length ++ (inside ++ '>' :: rest) := by
      rw [← hcut, List.take_append_drop]
    split at h
    · cases h
      conv => rhs; rw [htext]
      simp [Element.text]
    · split at h
      · cases h
      · rename_i body found hseek
        have hseek := seekEnd_eq_some hseek
        have hend := throughTagEnd_append found
        cases h
        conv => rhs; rw [htext, hseek, ← hend]
        simp [Element.text]

theorem length_elementAt_lt {offset : Nat} {kind : ElementKind} {text after : Text}
    {element : Element} (h : elementAt offset kind text = .ok (element, after)) :
    after.length < ('<' :: text).length := by
  have := congrArg List.length (elementAt_eq_ok h)
  simp only [Element.text, List.length_append, List.length_cons] at this ⊢
  omega

/-! ## Cutting -/

namespace Document

/-- The text that begins at a byte offset, cut at its elements. -/
def ofTextAt (offset : Nat) (text : Text) : Document :=
  match _hseek : seekElement text with
  | none => .rest text
  | some (before, found) =>
    let start := offset + Text.byteSize before
    match tag? found with
    | none => .rest text
    | some (kind, _) =>
      match _helement : elementAt start kind found with
      | .error fault => .broken before fault
      | .ok (element, after) =>
        .cons before element (ofTextAt (start + Text.byteSize element.text) after)
termination_by text.length
decreasing_by
  have hlength := length_elementAt_lt _helement
  have htext := congrArg List.length (seekElement_eq_some _hseek).1
  simp only [List.length_append, List.length_cons] at htext hlength
  omega

/-- A source cut at its elements. -/
def ofText (source : Text) : Document :=
  ofTextAt 0 source

/-- The text of a document that is not broken. -/
def text : Document → Text
  | .rest body => body
  | .cons before element after => before ++ element.text ++ after.text
  | .broken before _ => before

/-- The pieces of the body of a document, one after the other. -/
def body : Document → Text
  | .rest body => body
  | .cons before _ after => before ++ after.body
  | .broken before _ => before

/-- The elements of a document in order. -/
def elements : Document → List Element
  | .rest _ => []
  | .cons _ element after => element :: after.elements
  | .broken _ _ => []

/-- Why a document is broken. -/
def fault? : Document → Option MarkupFault
  | .rest _ => none
  | .cons _ _ after => after.fault?
  | .broken _ fault => some fault

/-- Cutting a source loses nothing, unless an element does not end. -/
theorem text_ofTextAt (offset : Nat) (source : Text) (h : (ofTextAt offset source).fault? = none) :
    (ofTextAt offset source).text = source := by
  fun_induction ofTextAt offset source with
  | case1 => rfl
  | case2 => rfl
  | case3 => simp [fault?] at h
  | case4 offset source before found hseek start kind _ htag element after helement ih =>
    simp only [fault?] at h
    rw [text, ih h, (seekElement_eq_some hseek).1, List.append_assoc, elementAt_eq_ok helement]

theorem text_ofText (source : Text) (h : (ofText source).fault? = none) :
    (ofText source).text = source :=
  text_ofTextAt 0 source h

end Document

end ComponentLoader.Markup
