import ComponentLoader.Module.Request
import ComponentLoader.Proofs.Digest.Fingerprint
import ComponentLoader.Proofs.Module.Id
import ComponentLoader.Proofs.Template.Parsed
import ComponentLoader.Template.Compile
set_option autoImplicit false

/-!
# Headers and the resources that they load (SPEC §4.4)

Two things are said of the resources of a template: in the header of its module, which of them are
loaded and under which ids, and in the compiled template, which of them there are to answer.  The
two come from the same elements but by different tests.  An empty script is in neither; an empty
stylesheet is in the header only.
-/

namespace ComponentLoader

/-! ## Headers -/

/-- The id of the module that a statement loads through the bundler. -/
def Statement.loadedId? : Statement → Option Text
  | .reexport id | .effect id => some id
  | .helper _ _ | .template _ | .componentName _ | .scopeToken _ | .component => none

namespace Compile

variable {settings : Settings} {file : FilePath} {parsed : ParsedTemplate}

/-- The statements with which the module of a template begins: they load its scripts and
stylesheets. -/
def header (settings : Settings) (file : FilePath) (parsed : ParsedTemplate) : List Statement :=
  scriptHeader file parsed.scripts ++
    (if settings.style.bundle then
      styleHeader (styleResources file (scopeToken settings file) parsed.stylesheets)
    else [])

theorem code_statements (helpers : HelperIndex) :
    Statement.code (statements settings helpers file parsed) =
      Statement.code (header settings file parsed) ++
        Statement.code (Generate.statements (moduleConfig settings helpers file) parsed) :=
  Statement.code_append _ _

theorem mem_scriptHeader_iff {nodes : List ResourceNode} {statement : Statement} :
    statement ∈ scriptHeader file nodes ↔
      ∃ index node, nodes[index]? = some node ∧ node.href = none ∧ node.content ≠ some [] ∧
        statement = .reexport (scriptId file index) := by
  unfold scriptHeader
  simp only [List.mem_filterMap, List.mem_mapIdx, id]
  constructor
  · rintro ⟨found, ⟨index, hindex, rfl⟩, hfound⟩
    unfold scriptStatement? at hfound
    split at hfound
    · rename_i hnode
      cases hfound
      refine ⟨index, nodes[index], List.getElem?_eq_getElem hindex, ?_⟩
      simpa [ResourceNode.isInline] using hnode
    · cases hfound
  · rintro ⟨index, node, hnode, hinline, hcontent, rfl⟩
    obtain ⟨hindex, rfl⟩ := List.getElem?_eq_some_iff.mp hnode
    refine ⟨_, ⟨index, hindex, rfl⟩, ?_⟩
    unfold scriptStatement?
    rw [if_pos]
    simp [ResourceNode.isInline, hinline, hcontent]

theorem mem_styleHeader_iff {scope : Text} {nodes : List ResourceNode} {statement : Statement} :
    statement ∈ styleHeader (styleResources file scope nodes) ↔
      ∃ index node, nodes[index]? = some node ∧
        statement = .effect (styleResource file scope node index).url := by
  unfold styleHeader styleResources
  simp only [List.mem_map, List.mem_mapIdx]
  constructor
  · rintro ⟨_, ⟨index, hindex, rfl⟩, rfl⟩
    exact ⟨index, nodes[index], List.getElem?_eq_getElem hindex, rfl⟩
  · rintro ⟨index, node, hnode, rfl⟩
    obtain ⟨hindex, rfl⟩ := List.getElem?_eq_some_iff.mp hnode
    exact ⟨_, ⟨index, hindex, rfl⟩, rfl⟩

/-- A template is compiled only if it can be parsed. -/
theorem ofSource_eq_ok_iff {parser : TemplateParser}
    {helpers : HelperIndex} {source : Text} {compiled : CompiledTemplate} :
    ofSource parser settings helpers file source = .ok compiled ↔
      ∃ parsed, (parser source).result = .ok parsed ∧
        compiled = ofParsed settings helpers file source (parser source).warnings parsed := by
  unfold ofSource
  cases hresult : (parser source).result with
  | error fault => simp [hresult]
  | ok parsed => simp [hresult, eq_comm]

/-- The token that is made of the path of a template can stand in a query. -/
theorem writable_of_scopeToken (h : settings.style.scope = none) (index : Option UInt64) :
    (ModulePart.stylesheet (some (scopeToken settings file)) index).Writable := by
  unfold scopeToken
  rw [h]
  exact Naming.writable_scopeToken _ index

end Compile

/-! ## Resources -/

/-- The text of a resource inside a template; an empty element has none. -/
def ResourceNode.text? (node : ResourceNode) : Option Text :=
  match node.href, node.content with
  | none, some (c :: rest) => some (c :: rest)
  | _, _ => none

/-- The text and the language of the resource with a number, if it is inside the template and not
empty. -/
def resourceAt? (nodes : List ResourceNode) (index : UInt64) : Option (Text × Text) := do
  let node ← nodes[index.toNat]?
  return (← node.text?, node.lang)

/-- The text and the language of the inline resource that a request is for, if the template has
it. -/
def ParsedTemplate.resource? (parsed : ParsedTemplate) : Request → Option (Text × Text)
  | .inlineScript index => resourceAt? parsed.scripts index
  | .inlineStyle _ index => index.bind (resourceAt? parsed.stylesheets)
  | .template | .stylesheet _ => none

/-- The script or the stylesheet that an element is. -/
def Markup.Element.node (element : Element) : ResourceNode :=
  match element.kind with
  | .script => element.script
  | .style => element.stylesheet

/-- Of a compiled template there is the text of each resource as it is in the template. -/
theorem Compile.text?_scriptResource (file : FilePath) (node : ResourceNode) (index : Nat) :
    (scriptResource file node index).text? = node.text? ∧
      (scriptResource file node index).lang = node.lang := by
  obtain ⟨href, content, lang⟩ := node
  rcases href with _ | reference
  · rcases content with _ | _ | ⟨c, rest⟩ <;> exact ⟨rfl, rfl⟩
  · exact ⟨rfl, rfl⟩

theorem Compile.text?_styleResource (file : FilePath) (scope : Text) (node : ResourceNode)
    (index : Nat) :
    (styleResource file scope node index).text? = node.text? ∧
      (styleResource file scope node index).lang = node.lang := by
  obtain ⟨href, content, lang⟩ := node
  rcases href with _ | reference
  · rcases content with _ | _ | ⟨c, rest⟩ <;> exact ⟨rfl, rfl⟩
  · exact ⟨rfl, rfl⟩

/-! ## Elements -/

theorem Markup.Element.exists_node_eq_resource (element : Element) :
    ∃ href lang, element.node = element.resource href lang := by
  unfold node
  cases element.kind with
  | script => exact ⟨_, _, rfl⟩
  | style => exact ⟨_, _, rfl⟩

theorem Markup.Document.parts_eq_map_node (document : Document) :
    document.parts.scripts = (document.elementsOf .script).map Element.node ∧
      document.parts.stylesheets = (document.elementsOf .style).map Element.node := by
  have hkind {kind : ElementKind} {element : Element} (hmem : element ∈ document.elementsOf kind) :
      element.kind = kind := by
    simpa using (List.mem_filter.mp hmem).2
  constructor
  · refine List.map_congr_left fun element hmem => ?_
    unfold Element.node
    rw [hkind hmem]
  · refine List.map_congr_left fun element hmem => ?_
    unfold Element.node
    rw [hkind hmem]

/-- What is inside the template has a text to answer exactly if it is not empty. -/
theorem ResourceNode.HasText.isSome_text?_iff {node : ResourceNode} (h : node.HasText)
    (hinline : node.href = none) : node.text?.isSome = true ↔ node.content ≠ some [] := by
  obtain ⟨text, htext⟩ := h hinline
  unfold ResourceNode.text?
  rw [hinline, htext]
  cases text with
  | nil => simp
  | cons c rest => simp

/-- The numbers of the elements are those under which they are asked for, as long as there are not
more elements than numbers. -/
theorem isSome_resourceAt?_iff {nodes : List ResourceNode} (hlength : nodes.length < UInt64.size)
    (htext : ∀ node ∈ nodes, node.HasText) {index : Nat} {node : ResourceNode}
    (hnode : nodes[index]? = some node) (hinline : node.href = none) :
    (resourceAt? nodes (.ofNat index)).isSome = true ↔ node.content ≠ some [] := by
  obtain ⟨hindex, -⟩ := List.getElem?_eq_some_iff.mp hnode
  have hnumber : (UInt64.ofNat index).toNat = index :=
    UInt64.toNat_ofNat_of_lt' (Nat.lt_trans hindex hlength)
  rw [← (htext node (List.mem_of_getElem? hnode)).isSome_text?_iff hinline]
  unfold resourceAt?
  rw [hnumber, hnode]
  cases hfound : node.text? <;> simp [hfound]

end ComponentLoader
