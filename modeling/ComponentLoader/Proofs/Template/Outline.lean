import ComponentLoader.Proofs.Markup.Outline
set_option autoImplicit false

/-!
# What of a template is in its module (SPEC §4.4)

The module of a template is made of the body, of the references of its resources, and of which
inline scripts are empty (`Compile.statements_congr`).  So it is the same for all sources with one
outline, and no text of an inline stylesheet or script is in it.
-/

namespace ComponentLoader

/-! ## Resources -/

/-- What the module of a template takes from a script: its reference, and whether it is empty. -/
def ResourceNode.mention (node : ResourceNode) : Option Text × Bool :=
  (node.href, node.content = some [])

/-- What is made of each item and its number does not depend on more than `key`. -/
theorem mapIdx_congr_of_map_eq {α β γ : Type} {key : α → β} {f : Nat → α → γ}
    (hf : ∀ index a b, key a = key b → f index a = f index b) {items items' : List α}
    (h : items.map key = items'.map key) : items.mapIdx f = items'.mapIdx f := by
  refine List.ext_getElem? fun index => ?_
  have hkey : (items[index]?).map key = (items'[index]?).map key := by
    simpa only [List.getElem?_map] using congrArg (·[index]?) h
  rw [List.getElem?_mapIdx, List.getElem?_mapIdx]
  cases hitem : items[index]? with
  | none =>
      rw [hitem, Option.map_none, eq_comm, Option.map_eq_none_iff] at hkey
      rw [hkey]
  | some item =>
      rw [hitem, Option.map_some, eq_comm, Option.map_eq_some_iff] at hkey
      obtain ⟨item', hitem', hkey⟩ := hkey
      rw [hitem', Option.map_some, Option.map_some, hf index item item' hkey.symm]

namespace Compile

theorem scriptHeader_congr (file : FilePath) {nodes nodes' : List ResourceNode}
    (h : nodes.map ResourceNode.mention = nodes'.map ResourceNode.mention) :
    scriptHeader file nodes = scriptHeader file nodes' := by
  unfold scriptHeader
  rw [mapIdx_congr_of_map_eq ?_ h]
  intro index node node' hmention
  obtain ⟨hhref, hempty⟩ := Prod.mk.inj hmention
  have hempty : (node.content = some [] ↔ node'.content = some []) := decide_eq_decide.mp hempty
  simp only [scriptStatement?, ResourceNode.isInline, hhref, Bool.and_eq_true, bne_iff_ne, ne_eq,
    hempty]

theorem styleHeader_congr (file : FilePath) (scope : Text) {nodes nodes' : List ResourceNode}
    (h : nodes.map ResourceNode.href = nodes'.map ResourceNode.href) :
    styleHeader (styleResources file scope nodes) =
      styleHeader (styleResources file scope nodes') := by
  have hurls (nodes : List ResourceNode) : styleHeader (styleResources file scope nodes) =
      nodes.mapIdx fun index node => .effect (styleResource file scope node index).url := by
    refine List.ext_getElem? fun index => ?_
    simp [styleHeader, styleResources, Option.map_map]
    rfl
  rw [hurls, hurls, mapIdx_congr_of_map_eq ?_ h]
  intro index node node' hhref
  unfold styleResource
  rw [hhref]
  cases node'.href <;> rfl

/-- The statements of a module are the same for parsed templates with the same body, the same
references, and the same empty scripts. -/
theorem statements_congr (settings : Settings) (helpers : HelperIndex) (file : FilePath)
    {parsed parsed' : ParsedTemplate} (hbody : parsed.body = parsed'.body)
    (hscripts : parsed.scripts.map ResourceNode.mention = parsed'.scripts.map ResourceNode.mention)
    (hstyles : parsed.stylesheets.map ResourceNode.href =
      parsed'.stylesheets.map ResourceNode.href) :
    statements settings helpers file parsed = statements settings helpers file parsed' := by
  have hexternal :
      Generate.scriptStatements parsed.scripts = Generate.scriptStatements parsed'.scripts := by
    have hmentions (nodes : List ResourceNode) : Generate.scriptStatements nodes =
        (nodes.map ResourceNode.mention).filterMap fun mention => mention.1.map .effect := by
      rw [List.filterMap_map]
      rfl
    rw [hmentions, hmentions, hscripts]
  simp only [statements, Generate.statements, scriptHeader_congr file hscripts,
    styleHeader_congr file _ hstyles, hexternal, hbody]

end Compile

/-! ## Alike documents -/

theorem Markup.Element.content_node_eq_some_iff {element : Element} {text : Text} :
    element.node.content = some text ↔ element.node.href = none ∧ element.content = text := by
  obtain ⟨href, lang, hnode⟩ := element.exists_node_eq_resource
  rw [hnode]
  unfold resource
  cases href <;> simp

theorem Markup.Element.Alike.mention_eq {element element' : Element} (h : element.Alike element')
    (hscript : element.kind = .script) : element.node.mention = element'.node.mention := by
  have hempty : element.node.content = some [] ↔ element'.node.content = some [] := by
    rw [content_node_eq_some_iff, content_node_eq_some_iff, ← h.href_eq]
    exact and_congr_right (h.empty_iff hscript)
  unfold ResourceNode.mention
  rw [h.href_eq, decide_eq_decide.mpr hempty]

/-- Elements that are alike are of one kind, so what they have in common is the
same for all of a kind. -/
theorem Markup.Document.Alike.map_elementsOf {document document' : Document}
    (h : document.Alike document') {α : Type} {f : Element → α} {kind : ElementKind}
    (hf : ∀ element element' : Element, element.Alike element' → element.kind = kind →
      f element = f element') :
    (document.elementsOf kind).map f = (document'.elementsOf kind).map f := by
  obtain ⟨-, helements, -⟩ := h
  unfold Document.elementsOf
  generalize document.elements = elements at helements
  generalize document'.elements = elements' at helements
  induction helements with
  | nil => rfl
  | @cons element element' rest rest' halike _ ih =>
      by_cases hkind : element.kind = kind
      · have hkind' : element'.kind = kind := halike.kind_eq.symm.trans hkind
        simp only [List.filter_cons, hkind, hkind', decide_true, if_true, List.map_cons, ih,
          hf element element' halike hkind]
      · have hkind' : element'.kind ≠ kind := fun heq => hkind (halike.kind_eq.trans heq)
        simpa only [List.filter_cons, hkind, hkind', decide_false, Bool.false_eq_true, if_false]
          using ih

/-- The modules of alike documents have the same statements. -/
theorem Markup.Document.Alike.statements_eq {document document' : Document}
    (h : document.Alike document') (settings : Settings) (helpers : HelperIndex) (file : FilePath) :
    Compile.statements settings helpers file document.parts =
      Compile.statements settings helpers file document'.parts := by
  apply Compile.statements_congr
  · exact h.body_eq
  · rw [document.parts_eq_map_node.1, document'.parts_eq_map_node.1, List.map_map, List.map_map]
    exact h.map_elementsOf fun element element' halike hscript => halike.mention_eq hscript
  · rw [document.parts_eq_map_node.2, document'.parts_eq_map_node.2, List.map_map, List.map_map]
    exact h.map_elementsOf fun element element' halike _ => halike.href_eq

/-! ## Modules -/

/-- Sources with one outline are compiled to the same code, or both of them are refused: what stands
in the inline stylesheets and scripts of a template does not reach its module. -/
theorem code_eq_of_sameOutline {source source' : Text} (h : Markup.SameOutline source source')
    (settings : Settings) (helpers : HelperIndex) (file : FilePath) {files files' : FileTree}
    (hread : files.readText file = .ok source) (hread' : files'.readText file = .ok source') :
    (∃ compiled compiled', compile parseMarkup settings helpers files file = .ok compiled ∧
      compile parseMarkup settings helpers files' file = .ok compiled' ∧
      compiled.code = compiled'.code) ∨
    ∃ e e', compile parseMarkup settings helpers files file = .error e ∧
      compile parseMarkup settings helpers files' file = .error e' := by
  have halike : (Markup.Document.ofText source).Alike (Markup.Document.ofText source') :=
    h.alike 0 0
  unfold compile
  rw [hread, hread']
  cases hfault : (Markup.Document.ofText source).fault? with
  | none =>
      have hparsed := parseMarkup_eq_ok_iff.mpr ⟨hfault, rfl⟩
      have hparsed' := parseMarkup_eq_ok_iff.mpr ⟨halike.fault_iff.mp hfault, rfl⟩
      refine Or.inl ⟨_, _, Compile.ofSource_eq_ok_iff.mpr ⟨_, hparsed, rfl⟩,
        Compile.ofSource_eq_ok_iff.mpr ⟨_, hparsed', rfl⟩, ?_⟩
      exact congrArg Statement.code (halike.statements_eq settings helpers file)
  | some fault =>
      have hbroken : (Markup.Document.ofText source').fault? ≠ none := by
        rw [Ne, ← halike.fault_iff, hfault]
        exact Option.some_ne_none fault
      obtain ⟨fault', hfault'⟩ := Option.ne_none_iff_exists'.mp hbroken
      have hrefused := parseMarkup_eq_error_iff.mpr hfault
      have hrefused' := parseMarkup_eq_error_iff.mpr hfault'
      exact Or.inr ⟨.ofMarkup file source fault, .ofMarkup file source' fault',
        by simp only [Compile.ofSource, hrefused], by simp only [Compile.ofSource, hrefused']⟩

/-- A tree with one template. -/
def templateTree (source : Text) : FileTree where
  entries := [([], ⟨1, 0, .directory⟩), (["c.html".toList], ⟨2, 0, .file (Text.utf8 source)⟩)]
  workingNames := []
  nextInode := 3
  clock := 1

/-- The texts hold what looks like an import, a call, and other elements. -/
theorem code_eq_of_misleading_texts :
    let plain : Text := "<p>a(1)</p><style>b</style><script>c</script>"
    let misleading : Text :=
      "<p>a(1)</p><style>@import 'x';<script src=y></style><script>b(2)</style></script>"
    Markup.SameOutline plain misleading ∧
      (templateTree plain).readText ⟨"c.html"⟩ = .ok plain ∧
      (templateTree misleading).readText ⟨"c.html"⟩ = .ok misleading ∧
      ∀ settings helpers, ∃ compiled compiled',
        compile parseMarkup settings helpers (templateTree plain) ⟨"c.html"⟩ = .ok compiled ∧
        compile parseMarkup settings helpers (templateTree misleading) ⟨"c.html"⟩ = .ok compiled' ∧
        compiled.code = compiled'.code := by
  intro plain misleading
  have hread : (templateTree plain).readText ⟨"c.html"⟩ = .ok plain := by decide +kernel
  have hread' : (templateTree misleading).readText ⟨"c.html"⟩ = .ok misleading := by decide +kernel
  have helement (kind : Markup.ElementKind) (body after : Text)
      (hbody : Markup.seekEnd kind body = none) : Markup.Element.Complete
        ⟨kind, 0, kind.tag, [], some body, '<' :: '/' :: (kind.tag ++ ['>'])⟩ after := by
    have hlower : Text.asciiLower kind.tag = kind.tag := by cases kind <;> rfl
    have hend : '>' ∉ '<' :: '/' :: kind.tag := by cases kind <;> decide
    exact .ended ⟨hlower, rfl, List.not_mem_nil⟩ (by decide) (Markup.seekEnd_eq_none_iff.mp hbody)
      ⟨kind.tag, rfl, hlower⟩ (List.prefix_append ('<' :: '/' :: kind.tag) ['>'])
      (Or.inl ⟨_, hend, rfl⟩)
  have hsame : Markup.SameOutline plain misleading := by
    have hscripts := @Markup.SameOutline.element [] [] [] _ _
      (Markup.seekElement_eq_none_iff.mp rfl) (helement .script "c" [] (by decide +kernel))
      (helement .script "b(2)</style>" [] (by decide +kernel))
      ⟨rfl, rfl, fun _ _ => iff_of_false (by decide) (by decide)⟩ (.refl [])
    have hstyles := @Markup.SameOutline.element "<p>a(1)</p>" _ _ _ _
      (Markup.seekElement_eq_none_iff.mp (by decide +kernel))
      (helement .style "b" _ (by decide +kernel))
      (helement .style "@import 'x';<script src=y>" _ (by decide +kernel))
      ⟨rfl, rfl, nofun⟩ hscripts
    convert hstyles using 1 <;> decide +kernel
  refine ⟨hsame, hread, hread', fun settings helpers => ?_⟩
  rcases code_eq_of_sameOutline hsame settings helpers ⟨"c.html"⟩ hread hread' with
    hcompiled | ⟨e, e', herror, -⟩
  · exact hcompiled
  · have hparsed : (parseMarkup plain).result.isOk = true := by decide +kernel
    unfold compile Compile.ofSource at herror
    rw [hread] at herror
    cases hresult : (parseMarkup plain).result with
    | ok parsed => simp [hresult] at herror
    | error fault =>
        rw [hresult] at hparsed
        cases hparsed

end ComponentLoader
