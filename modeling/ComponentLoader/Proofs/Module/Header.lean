import ComponentLoader.Proofs.Helper.Exports
import ComponentLoader.Proofs.Template.Header
import ComponentLoader.Proofs.Text.Line
import ComponentLoader.Proofs.Text.Literal
import ComponentLoader.Template.Statement
import Mathlib.Data.List.Basic
set_option autoImplicit false

/-!
# Reading headers back (SPEC §4.4)

The modules that some code loads are found line by line, without reading the code as statements.
For code that was written from statements this finds exactly the modules that they load: a line
stands for one statement, because texts stand in literals and literals hold no line end, and the
form of the line tells the kind of the statement.  The only text outside a literal is the name of a
helper, and exported names are identifiers.  So the modules that are found for a compiled template
are those of its header.
-/

namespace ComponentLoader

/-! ## Lines of statements -/

namespace Text

/-- Nothing is trimmed behind a character that is not blank. -/
theorem trimEnd_concat {c : Char} (h : isSpace c = false) (text : Text) :
    trimEnd (text ++ [c]) = text ++ [c] := by
  unfold trimEnd
  rw [List.reverse_append, List.reverse_singleton, List.singleton_append,
    List.dropWhile_cons_of_neg (by simp [h]), List.reverse_cons, List.reverse_reverse]

end Text

namespace Statement

/-- The statement is written on one line: no line ends in what stands outside the literals. -/
def IsOneLine : Statement → Prop
  | helper name _ => '\n' ∉ name
  | reexport _ | effect _ | template _ | componentName _ | scopeToken _ | component => True

theorem newline_not_mem_literal {lead : Text} (h : '\n' ∉ lead) (text : Text) :
    '\n' ∉ lead ++ Text.quote text ++ ";".toList := by
  have htail : '\n' ∉ ";".toList := by decide
  rw [List.mem_append, List.mem_append]
  exact not_or.mpr ⟨not_or.mpr ⟨h, Text.newline_not_mem_quote text⟩, htail⟩

theorem newline_not_mem_line {statement : Statement} (h : statement.IsOneLine) :
    '\n' ∉ statement.line := by
  cases statement with
  | helper name file =>
      have hfront : '\n' ∉ "import \x7b ".toList := by decide
      have hback : '\n' ∉ " \x7d from ".toList := by decide
      refine newline_not_mem_literal ?_ file
      rw [List.mem_append, List.mem_append]
      exact not_or.mpr ⟨not_or.mpr ⟨hfront, h⟩, hback⟩
  | component => decide
  | _ => exact newline_not_mem_literal (by decide) _

theorem getLast?_line (statement : Statement) : statement.line.getLast? = some ';' := by
  cases statement with
  | component => decide
  | _ => exact List.getLast?_concat ..

/-- A statement that is written on one line is one line of the code, whatever follows. -/
theorem lines_line_append {statement : Statement} (h : statement.IsOneLine) (after : Text) :
    Text.lines (statement.line ++ '\n' :: after) = statement.line :: Text.lines after := by
  refine Text.lines_append_cons (newline_not_mem_line h) ?_ after
  rw [statement.getLast?_line]
  decide

/-- The lines of some code are those of its statements. -/
theorem lines_code {statements : List Statement}
    (h : ∀ statement ∈ statements, statement.IsOneLine) :
    Text.lines (code statements) = statements.map line := by
  induction statements with
  | nil => rfl
  | cons statement rest ih =>
      have hrest := ih fun other hmem => h other (List.mem_cons_of_mem _ hmem)
      rw [code_cons, lines_line_append (h statement List.mem_cons_self), hrest, List.map_cons]

end Statement

/-! ## What a line loads -/

namespace Header

/-- Behind the front of a statement that loads a module stands the literal with its id. -/
theorem specifier?_eq {line rest : Text} (h : loadedPart? line = some (rest ++ [';'])) :
    specifier? line = Text.unquote? rest := by
  have hspace : Text.isSpace ';' = false := by decide
  have htail : Text.dropTail? ";" (rest ++ [';']) = some rest := Text.dropTail?_eq_some_iff.mpr rfl
  unfold specifier?
  rw [h]
  simp only [Option.bind_eq_bind, Option.bind_some, Text.trimEnd_concat hspace, htail]

theorem loadedPart?_effect (rest : Text) :
    loadedPart? (Statement.effectLead ++ rest) = some rest := by
  unfold loadedPart?
  rw [Text.dropLead?_eq_some_iff.mpr rfl]
  rfl

theorem loadedPart?_reexport (rest : Text) :
    loadedPart? (Statement.reexportLead ++ rest) = some rest := by
  unfold loadedPart?
  have heffect : Text.dropLead? Statement.effectLead (Statement.reexportLead ++ rest) = none := rfl
  rw [heffect, Text.dropLead?_eq_some_iff.mpr rfl]
  rfl

/-- A line loads what its statement loads. -/
theorem specifier?_line (statement : Statement) :
    specifier? statement.line = statement.loadedId? := by
  cases statement with
  | reexport id =>
      have hline : (Statement.reexport id).line =
          Statement.reexportLead ++ (Text.quote id ++ [';']) := List.append_assoc ..
      have hpart : loadedPart? (Statement.reexport id).line = some (Text.quote id ++ [';']) := by
        rw [hline, loadedPart?_reexport]
      rw [specifier?_eq hpart, Text.unquote?_quote]
      rfl
  | effect id =>
      have hline : (Statement.effect id).line =
          Statement.effectLead ++ (Text.quote id ++ [';']) := List.append_assoc ..
      have hpart : loadedPart? (Statement.effect id).line = some (Text.quote id ++ [';']) := by
        rw [hline, loadedPart?_effect]
      rw [specifier?_eq hpart, Text.unquote?_quote]
      rfl
  | helper name file =>
      -- the front is that of a module which is loaded for what it does, but no literal follows
      let rest : Text := "\x7b " ++ name ++ " \x7d from " ++ Text.quote file
      have hline : (Statement.helper name file).line = Statement.effectLead ++ (rest ++ [';']) :=
        rfl
      have hpart : loadedPart? (Statement.helper name file).line = some (rest ++ [';']) := by
        rw [hline, loadedPart?_effect]
      rw [specifier?_eq hpart]
      exact Text.unquote?_eq_none_of_head (by decide) (by decide) _
  | template markup => rfl
  | componentName name => rfl
  | scopeToken token => rfl
  | component => rfl

/-- The modules that some code loads are those that its statements load. -/
theorem specifiers_code {statements : List Statement}
    (h : ∀ statement ∈ statements, statement.IsOneLine) :
    specifiers (Statement.code statements) = statements.filterMap Statement.loadedId? := by
  unfold specifiers
  rw [Statement.lines_code h, List.filterMap_map]
  exact List.filterMap_congr fun statement _ => specifier?_line statement

end Header

/-! ## Modules of templates -/

/-- Every statement that is generated is written on one line, since the names of helpers are
identifiers. -/
theorem Generate.isOneLine_of_mem_statements {config : ModuleConfig} {parsed : ParsedTemplate}
    (hhelpers : (HelperIndex.mk config.helpers).FoundBy exportNames) {statement : Statement}
    (hmem : statement ∈ Generate.statements config parsed) : statement.IsOneLine := by
  unfold Generate.statements at hmem
  simp only [List.mem_append] at hmem
  rcases hmem with (hexternal | hhelper) | hfixed
  · obtain ⟨node, -, hnode⟩ := List.mem_filterMap.mp hexternal
    obtain ⟨reference, -, rfl⟩ := Option.map_eq_some_iff.mp hnode
    trivial
  · obtain ⟨⟨name, path⟩, hentry, rfl⟩ := List.mem_map.mp hhelper
    obtain ⟨script, hscript⟩ := hhelpers name path (List.mem_filter.mp hentry).1
    exact (isIdentifier_of_exportNames hscript).not_mem (by decide +kernel)
  · simp only [List.mem_cons, List.not_mem_nil, or_false] at hfixed
    rcases hfixed with rfl | rfl | rfl | rfl <;> trivial

namespace Compile

variable {settings : Settings} {helpers : HelperIndex} {file : FilePath} {parsed : ParsedTemplate}

/-- The ids of the scripts that are inside a template and not empty, in order. -/
def inlineScriptIds (file : FilePath) (nodes : List ResourceNode) : List Text :=
  (nodes.zipIdx.filter fun (node, _) => node.text?.isSome).map fun (_, index) => scriptId file index

/-- An inline script is loaded exactly if there is a text to answer. -/
theorem loadedId?_scriptStatement? {node : ResourceNode} (htext : node.HasText) (index : Nat) :
    (scriptStatement? file node index).bind Statement.loadedId? =
      if node.text?.isSome then some (scriptId file index) else none := by
  unfold scriptStatement? ResourceNode.isInline
  cases hhref : node.href with
  | some reference =>
      have hnone : node.text? = none := by
        unfold ResourceNode.text?
        rw [hhref]
      simp [hnone]
  | none =>
      have hempty := htext.isSome_text?_iff hhref
      by_cases hcontent : node.content = some []
      · simp [hcontent, hempty]
      · simp [hcontent, hempty, Statement.loadedId?]

theorem loadedIds_scriptHeader {nodes : List ResourceNode} (htext : ∀ node ∈ nodes, node.HasText) :
    (scriptHeader file nodes).filterMap Statement.loadedId? = inlineScriptIds file nodes := by
  unfold scriptHeader inlineScriptIds
  rw [List.mapIdx_eq_zipIdx_map, List.filterMap_map, List.filterMap_filterMap,
    ← List.filterMap_eq_map, List.filterMap_filter]
  refine List.filterMap_congr ?_
  rintro ⟨node, index⟩ hmem
  exact loadedId?_scriptStatement? (htext node (List.fst_mem_of_mem_zipIdx hmem)) index

theorem loadedIds_styleHeader (styles : List Resource) :
    (styleHeader styles).filterMap Statement.loadedId? = styles.map Resource.url := by
  unfold styleHeader
  rw [List.filterMap_map, ← List.filterMap_eq_map]
  rfl

theorem loadedIds_scriptStatements (nodes : List ResourceNode) :
    (Generate.scriptStatements nodes).filterMap Statement.loadedId? =
      nodes.filterMap ResourceNode.href := by
  unfold Generate.scriptStatements
  rw [List.filterMap_filterMap]
  congr
  funext node
  cases node.href <;> rfl

theorem loadedIds_helperStatements (helpers : OrderedMap Text FilePath) (markup : Text) :
    (Generate.helperStatements helpers markup).filterMap Statement.loadedId? = [] := by
  unfold Generate.helperStatements
  rw [List.filterMap_map]
  exact List.filterMap_eq_nil_iff.mpr fun entry _ => rfl

/-- What the module of a template loads: its inline scripts, its stylesheets, and the
scripts that it refers to. -/
theorem loadedIds_statements (htext : ∀ node ∈ parsed.scripts, node.HasText) :
    (statements settings helpers file parsed).filterMap Statement.loadedId? =
      inlineScriptIds file parsed.scripts ++
        (if settings.style.bundle then
          (styleResources file (scopeToken settings file) parsed.stylesheets).map Resource.url
        else []) ++
        parsed.scripts.filterMap ResourceNode.href := by
  unfold statements Generate.statements
  simp only [List.filterMap_append, loadedIds_scriptHeader htext, loadedIds_scriptStatements,
    loadedIds_helperStatements]
  cases settings.style.bundle <;> simp [loadedIds_styleHeader, Statement.loadedId?]

/-- Every statement is written on one line, since the names of helpers are identifiers. -/
theorem isOneLine_of_mem_statements (hhelpers : helpers.FoundBy exportNames) {statement : Statement}
    (hmem : statement ∈ statements settings helpers file parsed) : statement.IsOneLine := by
  unfold statements at hmem
  simp only [List.mem_append] at hmem
  rcases hmem with (hscript | hstyle) | hgenerated
  · obtain ⟨index, node, -, -, -, rfl⟩ := mem_scriptHeader_iff.mp hscript
    trivial
  · split at hstyle
    · obtain ⟨index, node, -, rfl⟩ := mem_styleHeader_iff.mp hstyle
      trivial
    · cases hstyle
  · exact Generate.isOneLine_of_mem_statements hhelpers hgenerated

end Compile

/-- The modules that are found in the code of a template are the inline scripts with a text,
then the stylesheets if they are bundled, then the scripts that it refers to, each in the
order of the template and with the id under which it is asked for.  Nothing else in the
template makes a difference. -/
theorem specifiers_of_ofSource {settings : Settings} {helpers : HelperIndex} {file : FilePath}
    {source : Text} {compiled : CompiledTemplate} (hhelpers : helpers.FoundBy exportNames)
    (hcompiled : Compile.ofSource parseMarkup settings helpers file source = .ok compiled) :
    ∃ parsed, (parseMarkup source).result = .ok parsed ∧
      Header.specifiers compiled.code =
        Compile.inlineScriptIds file parsed.scripts ++
          (if settings.style.bundle then compiled.styles.map Resource.url else []) ++
          parsed.scripts.filterMap ResourceNode.href := by
  obtain ⟨parsed, hparsed, rfl⟩ := Compile.ofSource_eq_ok_iff.mp hcompiled
  refine ⟨parsed, hparsed, ?_⟩
  calc
    Header.specifiers (Statement.code (Compile.statements settings helpers file parsed))
        = (Compile.statements settings helpers file parsed).filterMap Statement.loadedId? :=
          Header.specifiers_code fun _ hmem => Compile.isOneLine_of_mem_statements hhelpers hmem
    _ = _ := Compile.loadedIds_statements (readFrom_of_parseMarkup hparsed).scripts_hasText

/-- A template in which the text of a script, the markup and the scope token all look like imports,
with an empty script and a helper. -/
theorem specifiers_of_misleading_template :
    let token : Text := "s\";\nimport \"x"
    let options : Options := { style := { scope := some fun _ => token } }
    let helpers := (HelperScan.empty.addFile ⟨"h.ts"⟩ (exportNames "export const fmt = 1\n")).index
    let source : Text :=
      "<script>import \"a\";</script><script></script><script src=\"b.js\"></script>" ++
        "<style href=\"c.css\"></style>fmt()\nimport \"d\";\n"
    ∃ settings compiled, options.resolve = .ok settings ∧ helpers.FoundBy exportNames ∧
      helpers.symbols.keys = ["fmt".toList] ∧
      Compile.ofSource parseMarkup settings helpers ⟨"card.html"⟩ source = .ok compiled ∧
      Header.specifiers compiled.code =
        ["card.html?type=componentScript&i=0".toList,
          "c.css?type=componentStylesheet&scope=".toList ++ token, "b.js".toList] := by
  intro token options helpers source
  obtain ⟨settings, hsettings, hbundle, hscope⟩ : ∃ settings, options.resolve = .ok settings ∧
      settings.style.bundle = true ∧ settings.style.scope = some fun _ => token :=
    ⟨_, rfl, rfl, rfl⟩
  have hempty : HelperScan.empty.index.FoundBy exportNames := fun name path hmem => nomatch hmem
  have hhelpers : helpers.FoundBy exportNames :=
    HelperScan.foundBy_addFile hempty ⟨"h.ts"⟩ fun name hmem => hmem
  have hkeys : helpers.symbols.keys = ["fmt".toList] := by decide +kernel
  let parsed : ParsedTemplate :=
    { stylesheets := [⟨some "c.css", none, "css"⟩]
      scripts :=
        [⟨none, some "import \"a\";", "js"⟩, ⟨none, some [], "js"⟩, ⟨some "b.js", none, "js"⟩]
      body := "fmt()\nimport \"d\";\n" }
  have hparsed : (parseMarkup source).result = .ok parsed :=
    parseMarkup_eq_ok_iff.mpr ⟨by decide +kernel, by decide +kernel⟩
  have hcompiled : Compile.ofSource parseMarkup settings helpers ⟨"card.html"⟩ source = .ok _ :=
    Compile.ofSource_eq_ok_iff.mpr ⟨parsed, hparsed, rfl⟩
  obtain ⟨parsed', hparsed', hspecifiers⟩ := specifiers_of_ofSource hhelpers hcompiled
  obtain rfl : parsed = parsed' := by simpa [hparsed] using hparsed'
  have htoken : Compile.scopeToken settings ⟨"card.html"⟩ = token := by
    unfold Compile.scopeToken
    rw [hscope]
  refine ⟨settings, _, hsettings, hhelpers, hkeys, hcompiled, hspecifiers.trans ?_⟩
  rw [hbundle]
  unfold Compile.ofParsed
  rw [htoken]
  rfl

end ComponentLoader
