import ComponentLoader.Proofs.Module.Header
import ComponentLoader.Proofs.Text.Keyword
import ComponentLoader.Proofs.Text.Words
set_option autoImplicit false

/-!
# Blanks in the markup (SPEC §4.4)

A helper is called where its name and a parenthesis stand in the markup, behind a character that
does not belong to a name (`calls_iff`).  No blank stands in the text of a call, and behind a blank
every name begins anew, so a call lies between two blanks and is the same there as by itself
(`calls_append_cons`).  What is called is thus told by the words of the markup, and these are the
same however the blanks between them are written.  So the option that condenses blanks changes the
template of a module and no other line.
-/

namespace ComponentLoader

namespace Generate

/-! ## Where calls stand -/

/-- A call of a helper stands in the text, not in its first `skip` characters, if the text is read
behind the character `previous`. -/
def HasCall (name : Text) (skip : Nat) (previous : Option Char) (text : Text) : Prop :=
  ∃ before after, text = before ++ (name ++ '(' :: after) ∧ skip ≤ before.length ∧
    startsCall (before.getLast?.or previous) = true

variable {name : Text}

/-- The last character that was read, after one more. -/
theorem getLast?_or_cons (c : Char) (before : Text) (previous : Option Char) :
    (c :: before).getLast?.or previous = before.getLast?.or (some c) := by
  rw [List.getLast?_cons, Option.some_or, Option.or_some]

theorem hasCall_cons_iff {skip : Nat} {previous : Option Char} {c : Char} {rest : Text} :
    HasCall name skip previous (c :: rest) ↔
      (skip = 0 ∧ startsCall previous = true ∧ ∃ after, c :: rest = name ++ '(' :: after) ∨
        HasCall name (skip - 1) (some c) rest := by
  constructor
  · rintro ⟨before, after, htext, hskip, hstart⟩
    cases before with
    | nil => exact Or.inl ⟨Nat.le_zero.mp hskip, hstart, after, htext⟩
    | cons d before =>
        obtain ⟨rfl, hrest⟩ := List.cons.inj htext
        rw [List.length_cons] at hskip
        rw [getLast?_or_cons] at hstart
        exact Or.inr ⟨before, after, hrest, by omega, hstart⟩
  · rintro (⟨rfl, hstart, after, htext⟩ | ⟨before, after, rfl, hskip, hstart⟩)
    · exact ⟨[], after, htext, Nat.zero_le _, hstart⟩
    · refine ⟨c :: before, after, rfl, ?_, by rwa [getLast?_or_cons]⟩
      rw [List.length_cons]
      omega

/-- Two calls have no character in common, for the parenthesis is at their ends only. -/
theorem length_lt_of_overlap (hname : '(' ∉ name) {before after after' : Text} (hne : before ≠ [])
    (h : name ++ '(' :: after' = before ++ (name ++ '(' :: after)) :
    name.length < before.length := by
  by_contra hshort
  have hbegins : before <+: name ++ '(' :: after' := h ▸ List.prefix_append ..
  obtain ⟨more, hmore⟩ : before <+: name :=
    List.prefix_of_prefix_length_le hbegins (List.prefix_append ..) (by omega)
  have hnone : '(' ∉ more := fun hmem => hname (hmore ▸ List.mem_append_right before hmem)
  have hrest : more ++ '(' :: after' = name ++ '(' :: after := by
    have hwhole : before ++ (more ++ '(' :: after') = before ++ (name ++ '(' :: after) := by
      rw [← List.append_assoc, hmore, h]
    exact List.append_cancel_left hwhole
  obtain ⟨rfl, -⟩ := Text.append_cons_inj hnone hname hrest
  exact hne (by simpa using hmore)

/-- Behind a call there is another one exactly if there is one behind its first character. -/
theorem hasCall_skip_iff (hname : '(' ∉ name) {c : Char} {rest after : Text}
    (hcall : c :: rest = name ++ '(' :: after) :
    HasCall name name.length (some c) rest ↔ HasCall name 0 (some c) rest := by
  constructor
  · rintro ⟨before, behind, hrest, -, hstart⟩
    exact ⟨before, behind, hrest, Nat.zero_le _, hstart⟩
  · rintro ⟨before, behind, rfl, -, hstart⟩
    have hlength := length_lt_of_overlap hname (List.cons_ne_nil c before) hcall.symm
    rw [List.length_cons] at hlength
    exact ⟨before, behind, rfl, by omega, hstart⟩

/-- A search from the left finds a call exactly if there is one. -/
theorem callsFrom_iff (hname : '(' ∉ name) {skip : Nat} {previous : Option Char} {text : Text} :
    callsFrom (name ++ ['(']) skip previous text = true ↔ HasCall name skip previous text := by
  have hbegins (text : Text) :
      (name ++ ['(']).isPrefixOf text = true ↔ ∃ after, text = name ++ '(' :: after := by
    rw [List.isPrefixOf_iff_prefix]
    simp [List.IsPrefix, eq_comm]
  induction text generalizing skip previous with
  | nil => simp [callsFrom, HasCall]
  | cons c rest ih =>
      rw [hasCall_cons_iff]
      cases skip with
      | succ skip => simp [callsFrom, ih]
      | zero =>
          rw [callsFrom, ← hbegins]
          split
          · rename_i hfound
            obtain ⟨after, hcall⟩ := (hbegins _).mp hfound
            simp [hfound, ih, hasCall_skip_iff hname hcall]
          · rename_i hnone
            simp [hnone, ih]

/-- Where a helper is called: the name and the parenthesis stand behind a
character that starts a call. -/
theorem calls_iff (hname : '(' ∉ name) {markup : Text} :
    calls markup name = true ↔
      ∃ before after, markup = before ++ (name ++ '(' :: after) ∧
        startsCall before.getLast? = true := by
  unfold calls
  rw [callsFrom_iff hname]
  simp [HasCall]

/-! ## Calls between blanks -/

theorem startsCall_of_isSpace {c : Char} (h : Text.isSpace c = true) :
    startsCall (some c) = true := by
  have hdot : c ≠ '.' := by
    rintro rfl
    cases h
  have hchar := Text.isIdentifierChar_of_isSpace h
  unfold Text.isIdentifierChar at hchar
  simp [startsCall, hchar, hdot]

/-- Behind a blank a call may begin, as at the front of a text. -/
theorem startsCall_behind_isSpace {c : Char} (h : Text.isSpace c = true) (front ahead : Text) :
    startsCall (front ++ c :: ahead).getLast? = startsCall ahead.getLast? := by
  rw [List.getLast?_append, List.getLast?_cons, Option.some_or]
  cases ahead.getLast? with
  | none => exact startsCall_of_isSpace h
  | some d => rfl

/-- What is called in a text is called in front of a blank in it or behind the blank. -/
theorem calls_append_cons (hname : name.IsIdentifier) {c : Char} (h : Text.isSpace c = true)
    (front rest : Text) :
    calls (front ++ c :: rest) name = (calls front name || calls rest name) := by
  have hparen : '(' ∉ name := hname.not_mem (by decide +kernel)
  have hpart : c ∉ name ++ ['('] := by
    have hc : c ≠ '(' := by
      rintro rfl
      cases h
    simp [hname.not_mem (Text.isIdentifierChar_of_isSpace h), hc]
  rw [Bool.eq_iff_iff, Bool.or_eq_true]
  simp only [calls_iff hparen]
  constructor
  · rintro ⟨before, after, htext, hstart⟩
    have htext' : front ++ c :: rest = before ++ ((name ++ ['(']) ++ after) := by simp [htext]
    rcases Text.part_beside hpart (by simp) htext' with ⟨behind, rfl⟩ | ⟨ahead, rfl, rfl⟩
    · exact Or.inl ⟨before, behind, by simp, hstart⟩
    · rw [startsCall_behind_isSpace h] at hstart
      exact Or.inr ⟨ahead, after, by simp, hstart⟩
  · rintro (⟨before, after, rfl, hstart⟩ | ⟨before, after, rfl, hstart⟩)
    · exact ⟨before, after ++ c :: rest, by simp, hstart⟩
    · refine ⟨front ++ c :: before, after, by simp, ?_⟩
      rwa [startsCall_behind_isSpace h]

/-- What is called in a text is called in one of its words. -/
theorem calls_eq_any_words (hname : name.IsIdentifier) (markup : Text) :
    calls markup name = (Text.words markup).any fun word => calls word name := by
  have halone (word : Text) (hword : ∀ c ∈ word, Text.isSpace c = false) :
      calls word name = (Text.words word).any fun word => calls word name := by
    by_cases hne : word = []
    · rw [hne]
      rfl
    · simp [Text.words_of_isWord ⟨hne, hword⟩]
  -- the word that was begun stands in front of what is still to be read
  suffices h : ∀ word, (∀ c ∈ word, Text.isSpace c = false) →
      calls (word ++ markup) name = (Text.words (word ++ markup)).any fun word => calls word name by
    exact h [] nofun
  induction markup with
  | nil =>
      intro word hword
      rw [List.append_nil]
      exact halone word hword
  | cons c rest ih =>
      intro word hword
      cases hc : Text.isSpace c with
      | false =>
          have hlonger : ∀ d ∈ word ++ [c], Text.isSpace d = false := by
            intro d hmem
            rcases List.mem_append.mp hmem with hold | hnew
            · exact hword d hold
            · rwa [List.mem_singleton.mp hnew]
          simpa using ih (word ++ [c]) hlonger
      | true =>
          have hrest : calls rest name = (Text.words rest).any fun word => calls word name :=
            ih [] nofun
          rw [calls_append_cons hname hc, Text.words_append_cons hc, List.any_append,
            ← halone word hword, hrest]

/-! ## Markup as it is exported -/

theorem exportedMarkup_of_condense {options : Toml.Table}
    (h : options.lookup whitespaceOption = some (.string condenseValue)) (body : Text) :
    exportedMarkup options body = Text.collapse (Text.trim body) := by
  have hcondenses : condenses options = true := by
    unfold condenses
    rw [h]
    rfl
  rw [exportedMarkup, if_pos hcondenses, Text.join_words]

theorem exportedMarkup_of_none {options : Toml.Table} (h : options.lookup whitespaceOption = none)
    (body : Text) : exportedMarkup options body = Text.trim body := by
  have hcondenses : condenses options = false := by
    unfold condenses
    rw [h]
  rw [exportedMarkup, if_neg (by simp [hcondenses])]

/-- Whatever becomes of the blanks, the exported markup has the words of the body. -/
theorem words_exportedMarkup (options : Toml.Table) (body : Text) :
    Text.words (exportedMarkup options body) = Text.words body := by
  unfold exportedMarkup
  split
  · exact Text.words_join fun _ => Text.isWord_of_mem_words
  · exact Text.words_trim body

/-- The helpers that the exported markup calls are those that the body calls. -/
theorem helperStatements_exportedMarkup {helpers : HelperIndex}
    (hhelpers : helpers.FoundBy exportNames) (options : Toml.Table) (body : Text) :
    helperStatements helpers.symbols (exportedMarkup options body) =
      helperStatements helpers.symbols body := by
  unfold helperStatements
  refine congrArg _ (List.filter_congr ?_)
  rintro ⟨name, path⟩ hmem
  obtain ⟨script, hname⟩ := hhelpers name path hmem
  have hidentifier := isIdentifier_of_exportNames hname
  show calls (exportedMarkup options body) name = calls body name
  rw [calls_eq_any_words hidentifier, calls_eq_any_words hidentifier, words_exportedMarkup]

/-! ## Modules -/

/-- The lines of a module around the literal with its markup: what is loaded, the template, and then
what the module says of the component. -/
def linesAround (loads : List Statement) (componentName scope literal : Text) : List Text :=
  loads.map Statement.line ++ ("const template = " ++ literal ++ ";") ::
    [Statement.componentName componentName, .scopeToken scope, .component].map Statement.line

/-- Some lines as they are written. -/
def writtenLines (lines : List Text) : Text :=
  lines.flatMap fun line => line ++ ['\n']

theorem code_eq_writtenLines (statements : List Statement) :
    Statement.code statements = writtenLines (statements.map Statement.line) := by
  rw [Statement.code, writtenLines, List.flatMap_map]

theorem isPrefix_line_of_mem_loads {scripts : List ResourceNode}
    {helpers : OrderedMap Text FilePath} {markup : Text} {statement : Statement}
    (h : statement ∈ scriptStatements scripts ++ helperStatements helpers markup) :
    "import ".toList <+: statement.line := by
  rcases List.mem_append.mp h with hscript | hhelper
  · obtain ⟨node, -, hnode⟩ := List.mem_filterMap.mp hscript
    obtain ⟨reference, -, rfl⟩ := Option.map_eq_some_iff.mp hnode
    exact ⟨Text.quote reference ++ ";", rfl⟩
  · obtain ⟨⟨name, path⟩, -, rfl⟩ := List.mem_map.mp hhelper
    exact ⟨"\x7b " ++ name ++ " \x7d from " ++ Text.quote (moduleSpelling path) ++ ";", rfl⟩

/-- What a module loads is told by the body, whatever the options are. -/
theorem statements_eq {config : ModuleConfig}
    (hhelpers : (HelperIndex.mk config.helpers).FoundBy exportNames) (parsed : ParsedTemplate) :
    statements config parsed =
      scriptStatements parsed.scripts ++ helperStatements config.helpers parsed.body ++
        [.template (exportedMarkup config.options parsed.body), .componentName config.componentName,
          .scopeToken config.scope, .component] := by
  unfold statements
  dsimp only
  rw [helperStatements_exportedMarkup hhelpers]

/-- A module, line by line. -/
theorem generate_eq_writtenLines (config : ModuleConfig) (hformat : config.format = moduleFormat)
    (hhelpers : (HelperIndex.mk config.helpers).FoundBy exportNames) (parsed : ParsedTemplate) :
    let loads := scriptStatements parsed.scripts ++ helperStatements config.helpers parsed.body
    let lines := linesAround loads config.componentName config.scope
      (Text.quote (exportedMarkup config.options parsed.body))
    generate config parsed = .ok (writtenLines lines) ∧
      Text.lines (writtenLines lines) = lines := by
  intro loads lines
  have hlines : (statements config parsed).map Statement.line = lines := by
    rw [statements_eq hhelpers, List.map_append]
    rfl
  have hcode : Statement.code (statements config parsed) = writtenLines lines := by
    rw [code_eq_writtenLines, hlines]
  have honeLine : ∀ statement ∈ statements config parsed, statement.IsOneLine :=
    fun _ => isOneLine_of_mem_statements hhelpers
  rw [← hcode, generate, if_pos hformat, Statement.lines_code honeLine]
  exact ⟨rfl, hlines⟩

end Generate

/-- With the option that condenses blanks and without it, a template has the same module but for the
line of its markup: the lines in front of that one all load something, and are in the same order,
and the three lines behind it say the name and the scope token and export the component.  The
literal without the option is read as the body without the blanks around it, and the one with the
option as the same text with one space for each of its runs of blanks. -/
theorem generate_with_and_without_condense {helpers : HelperIndex}
    (hhelpers : helpers.FoundBy exportNames) {condensed plain : Toml.Table}
    (hcondensed :
      condensed.lookup Generate.whitespaceOption = some (.string Generate.condenseValue))
    (hplain : plain.lookup Generate.whitespaceOption = none)
    (file : FilePath) (scope componentName : Text) (parsed : ParsedTemplate) :
    let config (options : Toml.Table) : ModuleConfig :=
      { file := file, scope := scope, componentName := componentName, helpers := helpers.symbols,
        options := options }
    let loads := Generate.scriptStatements parsed.scripts ++
      Generate.helperStatements helpers.symbols parsed.body
    let lines := Generate.linesAround loads componentName scope
    (∀ statement ∈ loads, "import ".toList <+: statement.line) ∧
      ∃ literal condensedLiteral,
        generate (config plain) parsed = .ok (Generate.writtenLines (lines literal)) ∧
        Text.lines (Generate.writtenLines (lines literal)) = lines literal ∧
        Text.unquote? literal = some (Text.trim parsed.body) ∧
        generate (config condensed) parsed =
          .ok (Generate.writtenLines (lines condensedLiteral)) ∧
        Text.lines (Generate.writtenLines (lines condensedLiteral)) = lines condensedLiteral ∧
        Text.unquote? condensedLiteral = some (Text.collapse (Text.trim parsed.body)) := by
  intro config loads lines
  obtain ⟨hgenerate, hlines⟩ := Generate.generate_eq_writtenLines (config plain) rfl hhelpers parsed
  obtain ⟨hgenerate', hlines'⟩ :=
    Generate.generate_eq_writtenLines (config condensed) rfl hhelpers parsed
  refine ⟨fun _ => Generate.isPrefix_line_of_mem_loads, _, _, hgenerate, hlines, ?_, hgenerate',
    hlines', ?_⟩
  · rw [Text.unquote?_quote, Generate.exportedMarkup_of_none hplain]
  · rw [Text.unquote?_quote, Generate.exportedMarkup_of_condense hcondensed]

/-- A body with blanks of several kinds between its words, in which one helper is called behind a
blank and the other one is only a part of what is called. -/
theorem generate_with_and_without_condense_of_calls :
    let script : Text := "export const fmt = 1\nexport const cut = 2\n"
    let helpers := (HelperScan.empty.addFile ⟨"h.ts"⟩ (exportNames script)).index
    let condensed : Toml.Table := [("whitespace", .string "condense")]
    let parsed : ParsedTemplate :=
      { scripts := [⟨some "b.js", none, "js"⟩]
        body := "\n<p>\u00A0\n\tfmt(1)  a.cut(2) cut (3)</p>\r\n" }
    let config (options : Toml.Table) : ModuleConfig :=
      { file := ⟨"card.html"⟩, scope := "s1", componentName := "card", helpers := helpers.symbols,
        options := options }
    let loads := Generate.scriptStatements parsed.scripts ++
      Generate.helperStatements helpers.symbols parsed.body
    let lines := Generate.linesAround loads "card" "s1"
    helpers.FoundBy exportNames ∧ helpers.symbols.keys = ["cut".toList, "fmt".toList] ∧
      loads.map Statement.line =
        ["import \"b.js\";".toList, "import \x7b fmt \x7d from \"h.ts\";".toList] ∧
      ∃ literal condensedLiteral,
        generate (config []) parsed = .ok (Generate.writtenLines (lines literal)) ∧
        Text.unquote? literal = some "<p>\u00A0\n\tfmt(1)  a.cut(2) cut (3)</p>".toList ∧
        generate (config condensed) parsed =
          .ok (Generate.writtenLines (lines condensedLiteral)) ∧
        Text.unquote? condensedLiteral = some "<p> fmt(1) a.cut(2) cut (3)</p>".toList := by
  intro script helpers condensed parsed config loads lines
  have hempty : HelperScan.empty.index.FoundBy exportNames := fun name path hmem => nomatch hmem
  have hhelpers : helpers.FoundBy exportNames :=
    HelperScan.foundBy_addFile hempty ⟨"h.ts"⟩ fun name hmem => hmem
  have hcondensed :
      condensed.lookup Generate.whitespaceOption = some (.string Generate.condenseValue) := rfl
  have hnone : ([] : Toml.Table).lookup Generate.whitespaceOption = none := rfl
  obtain ⟨-, literal, condensedLiteral, hplain, -, hread, hcondense, -, hread'⟩ :=
    generate_with_and_without_condense hhelpers hcondensed hnone ⟨"card.html"⟩ "s1" "card" parsed
  exact ⟨hhelpers, by decide +kernel, by decide +kernel, literal, condensedLiteral, hplain,
    hread.trans (by decide), hcondense, hread'.trans (by decide)⟩

end ComponentLoader
