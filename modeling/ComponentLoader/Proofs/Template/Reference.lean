import ComponentLoader.Proofs.Module.Query
import ComponentLoader.Proofs.Template.Header
set_option autoImplicit false

/-!
# Ids of stylesheets (SPEC §4.4)

The scope token of a template reaches a stylesheet through its id.  For a stylesheet inside the
template the id is written from its parts and read back.  For one outside, the query is put
behind whatever the template refers to it by, and a reference with a query of its own takes the
new question mark into its last pair.  `TakesScope` says when the stylesheet is still asked for
with the scope token: without a query, or behind one that asks for a stylesheet by itself.
Behind a query about anything else the id is that of the plain file, and the stylesheet is
served without a scope token.
-/

namespace ComponentLoader

namespace ModuleId

variable {scope : Text}

/-! ## What is asked for with a scope token -/

theorem Query.part_eq_stylesheet_iff {query : Query} {token : Option Text} {index : Option UInt64} :
    query.part = .ok (some (.stylesheet token index)) ↔
      query.kind = some stylesheetType ∧ query.scope = token ∧ query.index = index := by
  have htypes : stylesheetType ≠ scriptType := by decide
  obtain ⟨kind, number, held⟩ := query
  unfold part
  cases kind with
  | none => simp
  | some kind =>
      simp only [Option.some.injEq]
      by_cases hscript : kind = scriptType
      · subst hscript
        cases number <;> simp [htypes.symm]
      · by_cases hstyle : kind = stylesheetType
        · simp [hstyle, htypes]
        · simp [hscript, hstyle]

/-- The pair says neither the kind nor the number, whatever its value goes on with. -/
def IsNeutral (pair : Text) : Prop :=
  ¬ "type=".toList <+: pair ∧ ¬ "i=".toList <+: pair

/-- The pairs that are read for the query of an id that is put behind the pair `last`. -/
def scopePairs (last scope : Text) : List Text :=
  [Query.continued last, "scope".toList ++ '=' :: scope]

/-- A pair that says nothing is followed by one that says the scope token. -/
theorem foldlM_scopePairs_of_isNeutral (hscope : scope ≠ []) (query : Query) {last : Text}
    (hlast : IsNeutral last) :
    (scopePairs last scope).foldlM Query.add query = .ok { query with scope := some scope } := by
  unfold scopePairs
  rcases query.add_continued last with ⟨htype, -⟩ | ⟨hindex, -⟩ | ⟨-, -, token, hadd⟩
  · exact absurd htype hlast.1
  · exact absurd hindex hlast.2
  · simp only [List.foldlM_cons, List.foldlM_nil, hadd, bind, Except.bind, Query.add_scope _ hscope,
      pure, Except.pure]

/-- A query goes on asking for a stylesheet, now with the scope token, exactly if it did before and
the pair in between says nothing. -/
theorem asks_scopePairs_iff (hscope : scope ≠ []) {query : Query} {last : Text} :
    (∃ asked, (scopePairs last scope).foldlM Query.add query = .ok asked ∧
      asked.part = .ok (some (.stylesheet (some scope) none))) ↔
      query.kind = some stylesheetType ∧ query.index = none ∧ IsNeutral last := by
  by_cases hlast : IsNeutral last
  · rw [foldlM_scopePairs_of_isNeutral hscope query hlast]
    simp [Query.part_eq_stylesheet_iff, hlast]
  · simp only [hlast, and_false, iff_false]
    rintro ⟨asked, hquery, hpart⟩
    unfold scopePairs at hquery
    rcases query.add_continued last with
      ⟨-, kind, hkind, hadd⟩ | ⟨-, e, hadd⟩ | ⟨htype, hindex, -⟩
    · simp only [List.foldlM_cons, List.foldlM_nil, hadd, bind, Except.bind,
        Query.add_scope _ hscope, pure, Except.pure] at hquery
      cases hquery
      obtain ⟨hstyle, -⟩ := Query.part_eq_stylesheet_iff.mp hpart
      exact hkind (Option.some.inj hstyle)
    · simp [hadd, bind, Except.bind] at hquery
    · exact hlast ⟨htype, hindex⟩

/-! ## References -/

/-- The scope token can be put behind a reference: it has no query, or its query asks for a
stylesheet without a number before the last pair, and the last pair says nothing. -/
def TakesScope (reference : Text) : Prop :=
  ∀ path own, Text.cut '?' reference = some (path, own) →
    ∃ front last asked, own = front ++ '&' :: last ∧ '&' ∉ last ∧ IsNeutral last ∧
      Query.parse front = .ok asked ∧ asked.kind = some stylesheetType ∧ asked.index = none

/-- The query of a reference, with what is put behind it. -/
def scopedQuery (own scope : Text) : Text :=
  Query.continued own ++ '&' :: ("scope".toList ++ '=' :: scope)

theorem externalStyleId_append (path own scope : Text) :
    Compile.externalStyleId (path ++ '?' :: own) scope = path ++ '?' :: scopedQuery own scope := by
  have hquery : '?' :: queryText (.stylesheet (some scope) none) =
      "?type".toList ++ ('=' :: stylesheetType ++ '&' :: ("scope".toList ++ '=' :: scope)) :=
    congrArg (List.cons '?') (List.append_nil _)
  unfold Compile.externalStyleId scopedQuery Query.continued
  show path ++ '?' :: own ++ '?' :: queryText (.stylesheet (some scope) none) = _
  rw [hquery]
  simp only [List.append_assoc, List.cons_append]

theorem queryPairs_scopedQuery {last : Text} (hlast : '&' ∉ last) (hscope : '&' ∉ scope) :
    queryPairs (scopedQuery last scope) = scopePairs last scope := by
  have hcontinued : '&' ∉ Query.continued last := by
    have hmark : '&' ∉ "?type".toList := by decide
    have htype : '&' ∉ '=' :: stylesheetType := by decide
    unfold Query.continued
    rw [List.mem_append, List.mem_append]
    exact not_or.mpr ⟨not_or.mpr ⟨hlast, hmark⟩, htype⟩
  have hne : Query.continued last ≠ [] := by simp [Query.continued]
  unfold scopedQuery scopePairs
  rw [queryPairs_append_cons hcontinued hne, queryPairs_pair (by decide) hscope]

theorem parse_scopedQuery {last : Text} (hlast : '&' ∉ last) (hscope : '&' ∉ scope) :
    Query.parse (scopedQuery last scope) = (scopePairs last scope).foldlM Query.add {} := by
  unfold Query.parse
  rw [queryPairs_scopedQuery hlast hscope]

theorem parse_scopedQuery_append {last : Text} (front : Text) (hlast : '&' ∉ last)
    (hscope : '&' ∉ scope) :
    Query.parse (scopedQuery (front ++ '&' :: last) scope) =
      (Query.parse front).bind fun asked => (scopePairs last scope).foldlM Query.add asked := by
  have htext : scopedQuery (front ++ '&' :: last) scope =
      front ++ '&' :: scopedQuery last scope := by
    simp [scopedQuery, Query.continued]
  rw [htext, Query.parse_append, queryPairs_scopedQuery hlast hscope]

/-- What an id with a query asks for. -/
theorem parse_append_eq_ok_iff {path query : Text} (hpath : '?' ∉ path) {part : Option ModulePart} :
    parse (path ++ '?' :: query) = .ok ⟨⟨path⟩, part⟩ ↔
      ∃ asked, Query.parse query = .ok asked ∧ asked.part = .ok part := by
  rw [parse_eq_ok_iff, Text.cut_append_cons hpath]
  constructor
  · rintro (⟨hnone, -⟩ | ⟨path', query', asked, part', hcut, hquery, hpart, heq⟩)
    · cases hnone
    · cases hcut
      cases heq
      exact ⟨asked, hquery, hpart⟩
  · rintro ⟨asked, hquery, hpart⟩
    exact Or.inr ⟨path, query, asked, part, rfl, hquery, hpart, rfl⟩

/-- A stylesheet is asked for with the scope token exactly if its reference takes it. -/
theorem parse_externalStyleId_iff (hscope : scope ≠ [] ∧ '&' ∉ scope) {reference : Text} :
    parse (Compile.externalStyleId reference scope) =
        .ok ⟨pathOf reference, some (.stylesheet (some scope) none)⟩ ↔ TakesScope reference := by
  cases hcut : Text.cut '?' reference with
  | none =>
      have hpath := Text.cut_eq_none_iff.mp hcut
      have hparse : parse (Compile.externalStyleId reference scope) =
          .ok ⟨⟨reference⟩, some (.stylesheet (some scope) none)⟩ := by
        refine parse_text hpath ?_
        rintro part ⟨⟩ token ⟨⟩
        exact hscope
      unfold pathOf TakesScope
      simp [hparse, hcut, Text.upTo_of_not_mem hpath]
  | some found =>
      obtain ⟨path, own⟩ := found
      have hpath := Text.not_mem_of_cut_eq_some hcut
      have hreference := Text.cut_eq_some hcut
      have hpathOf : pathOf reference = ⟨path⟩ := by
        unfold pathOf
        rw [hreference, Text.upTo_append_cons hpath]
      rw [hpathOf, hreference, externalStyleId_append, parse_append_eq_ok_iff hpath, ← hreference]
      unfold TakesScope
      constructor
      · rintro ⟨asked, hquery, hpart⟩ path' own' hcut'
        obtain ⟨rfl, rfl⟩ : path = path' ∧ own = own' := by simpa [hcut] using hcut'
        obtain ⟨front, last, hlast, rfl | ⟨-, rfl⟩⟩ := Query.exists_last_pair own
        · rw [parse_scopedQuery_append front hlast hscope.2] at hquery
          cases hfront : Query.parse front with
          | error e => simp [hfront, Except.bind] at hquery
          | ok before =>
              rw [hfront] at hquery
              obtain ⟨hkind, hindex, hneutral⟩ :=
                (asks_scopePairs_iff hscope.1).mp ⟨asked, hquery, hpart⟩
              exact ⟨front, last, before, rfl, hlast, hneutral, hfront, hkind, hindex⟩
        · -- a single pair cannot both ask for a stylesheet and be continued
          rw [parse_scopedQuery hlast hscope.2] at hquery
          obtain ⟨hkind, -, -⟩ := (asks_scopePairs_iff hscope.1).mp ⟨asked, hquery, hpart⟩
          cases hkind
      · intro htakes
        obtain ⟨front, last, before, rfl, hlast, hneutral, hfront, hkind, hindex⟩ :=
          htakes path own hcut
        rw [parse_scopedQuery_append front hlast hscope.2, hfront]
        exact (asks_scopePairs_iff hscope.1).mpr ⟨hkind, hindex, hneutral⟩

/-! ### Queries about something else -/

theorem isNeutral_of_isForeign {pair : Text} (h : Query.IsForeign pair) : IsNeutral pair := by
  have hkey (key : Text) (hkey : '=' ∉ key) : key ++ ['='] <+: pair → (splitPair pair).1 = key := by
    rintro ⟨value, rfl⟩
    rw [List.append_assoc, List.singleton_append, splitPair_append_cons hkey]
  exact ⟨fun htype => h.1 (hkey "type".toList (by decide) htype),
    fun hindex => h.2 (hkey "i".toList (by decide) hindex)⟩

/-- A reference with a query in which no kind and no number is given is that of a plain file,
whatever is put behind it. -/
theorem parse_externalStyleId_of_isForeign (hscope : scope ≠ [] ∧ '&' ∉ scope)
    {reference path own : Text} (hcut : Text.cut '?' reference = some (path, own))
    (hforeign : ∀ pair ∈ queryPairs own, Query.IsForeign pair) :
    parse (Compile.externalStyleId reference scope) = .ok ⟨⟨path⟩, none⟩ := by
  have hlast {last : Text} (hmem : last ≠ [] → last ∈ queryPairs own) : IsNeutral last := by
    by_cases hempty : last = []
    · subst hempty
      exact ⟨by decide, by decide⟩
    · exact isNeutral_of_isForeign (hforeign last (hmem hempty))
  rw [Text.cut_eq_some hcut, externalStyleId_append,
    parse_append_eq_ok_iff (Text.not_mem_of_cut_eq_some hcut)]
  obtain ⟨front, last, hend, rfl | ⟨-, rfl⟩⟩ := Query.exists_last_pair own
  · have hpairs : ∀ pair ∈ queryPairs front, Query.IsForeign pair := by
      intro pair hmem
      refine hforeign pair ?_
      rw [queryPairs_append]
      exact List.mem_append_left _ hmem
    obtain ⟨token, hfront⟩ := Query.foldlM_add_of_isForeign hpairs {}
    have hneutral : IsNeutral last := hlast fun hne => by
      rw [queryPairs_append, queryPairs_of_not_mem hend hne]
      exact List.mem_append_right _ List.mem_cons_self
    rw [parse_scopedQuery_append front hend hscope.2, show Query.parse front = _ from hfront]
    exact ⟨_, foldlM_scopePairs_of_isNeutral hscope.1 _ hneutral, rfl⟩
  · have hneutral : IsNeutral own := hlast fun hne => by
      rw [queryPairs_of_not_mem hend hne]
      exact List.mem_cons_self
    rw [parse_scopedQuery hend hscope.2]
    exact ⟨_, foldlM_scopePairs_of_isNeutral hscope.1 _ hneutral, rfl⟩

end ModuleId

/-! ## Stylesheets of templates -/

theorem Compile.url_styleResource_of_inline {file : FilePath} {scope : Text} {node : ResourceNode}
    (h : node.href = none) (index : Nat) :
    (styleResource file scope node index).url = styleId file scope index := by
  unfold styleResource
  rw [h]

theorem Compile.url_styleResource_of_reference {file : FilePath} {scope reference : Text}
    {node : ResourceNode} (h : node.href = some reference) (index : Nat) :
    (styleResource file scope node index).url = externalStyleId reference scope := by
  unfold styleResource
  rw [h]

/-- What the ids of the stylesheets of a compiled template ask for, with scope tokens that are made
from paths.  The one of an element inside the template asks for the stylesheet with its number and
with the scope token of the template.  The one of an element that refers to a file asks for that
file as a stylesheet with the scope token exactly if the reference takes it, and for the plain file
if the reference has a query without a kind and a number. -/
theorem parse_url_of_styles {settings : Settings} {helpers : HelperIndex} {file : FilePath}
    {source : Text} {compiled : CompiledTemplate} (hscope : settings.style.scope = none)
    (hfile : '?' ∉ file.text) (hsize : source.length < UInt64.size)
    (hcompiled : Compile.ofSource parseMarkup settings helpers file source = .ok compiled) :
    let token := Naming.scopeToken (Naming.scopeSeed settings.root file)
    ∃ parsed, (parseMarkup source).result = .ok parsed ∧
      compiled.styles.length = parsed.stylesheets.length ∧
      ∀ k node resource, parsed.stylesheets[k]? = some node → compiled.styles[k]? = some resource →
        (node.href = none → ∃ index : UInt64, index.toNat = k ∧
          ModuleId.parse resource.url =
            .ok ⟨file, some (.stylesheet (some token) (some index))⟩) ∧
        ∀ reference, node.href = some reference →
          (ModuleId.parse resource.url =
              .ok ⟨ModuleId.pathOf reference, some (.stylesheet (some token) none)⟩ ↔
            ModuleId.TakesScope reference) ∧
          ∀ path own, Text.cut '?' reference = some (path, own) →
            (∀ pair ∈ ModuleId.queryPairs own, ModuleId.Query.IsForeign pair) →
            ModuleId.parse resource.url = .ok ⟨⟨path⟩, none⟩ := by
  intro token
  obtain ⟨parsed, hparsed, rfl⟩ := Compile.ofSource_eq_ok_iff.mp hcompiled
  have htoken : Compile.scopeToken settings file = token := by
    unfold Compile.scopeToken
    rw [hscope]
  have hwritable (index : Option UInt64) : (ModulePart.stylesheet (some token) index).Writable :=
    htoken ▸ Compile.writable_of_scopeToken hscope index
  refine ⟨parsed, hparsed, List.length_mapIdx, ?_⟩
  intro k node resource hnode hresource
  have hstyles : (Compile.styleResources file token parsed.stylesheets)[k]? = some resource :=
    htoken ▸ hresource
  obtain rfl : Compile.styleResource file token node k = resource := by
    rw [Compile.styleResources, List.getElem?_mapIdx, hnode] at hstyles
    exact Option.some.inj hstyles
  obtain ⟨hindex, -⟩ := List.getElem?_eq_some_iff.mp hnode
  have hlength := (readFrom_of_parseMarkup hparsed).stylesheets_length
  refine ⟨?_, ?_⟩
  · intro hinline
    have hnumber : (UInt64.ofNat k).toNat = k := UInt64.toNat_ofNat_of_lt' (by omega)
    refine ⟨.ofNat k, hnumber, ?_⟩
    rw [Compile.url_styleResource_of_inline hinline]
    refine ModuleId.parse_text hfile ?_
    rintro part ⟨⟩
    exact hwritable _
  · intro reference hexternal
    rw [Compile.url_styleResource_of_reference hexternal]
    have hquery : token ≠ [] ∧ '&' ∉ token := hwritable none token rfl
    refine ⟨ModuleId.parse_externalStyleId_iff hquery, ?_⟩
    intro path own hcut hforeign
    exact ModuleId.parse_externalStyleId_of_isForeign hquery hcut hforeign

/-- A template with a stylesheet inside and one whose reference asks for a stylesheet by itself:
with the default options the scope token reaches both. -/
theorem parse_url_of_asking_reference :
    let file : FilePath := ⟨"card.html"⟩
    let source : Text :=
      "<style>p \x7b\x7d</style><style href=\"b.css?type=componentStylesheet&v\"></style>"
    ∃ settings compiled, Options.resolve {} = .ok settings ∧
      settings.style.scope = none ∧ '?' ∉ file.text ∧ source.length < UInt64.size ∧
      Compile.ofSource parseMarkup settings .empty file source = .ok compiled ∧
      let token := Naming.scopeToken (Naming.scopeSeed settings.root file)
      ∃ inside outside, compiled.styles = [inside, outside] ∧
        ModuleId.parse inside.url = .ok ⟨file, some (.stylesheet (some token) (some 0))⟩ ∧
        ModuleId.parse outside.url = .ok ⟨⟨"b.css"⟩, some (.stylesheet (some token) none)⟩ := by
  intro file source
  obtain ⟨settings, hsettings, hscope⟩ :
      ∃ settings, Options.resolve {} = .ok settings ∧ settings.style.scope = none := ⟨_, rfl, rfl⟩
  have hfile : '?' ∉ file.text := by decide
  have hsize : source.length < UInt64.size := by decide
  let reference : Text := "b.css?type=componentStylesheet&v"
  let parsed : ParsedTemplate :=
    { stylesheets :=
        [⟨none, some "p \x7b\x7d", "css"⟩, ⟨reference, none, "css?type=componentstylesheet&v"⟩]
      scripts := []
      body := [] }
  have hparsed : (parseMarkup source).result = .ok parsed :=
    parseMarkup_eq_ok_iff.mpr ⟨by decide +kernel, by decide +kernel⟩
  have hcompiled : Compile.ofSource parseMarkup settings .empty file source = .ok _ :=
    Compile.ofSource_eq_ok_iff.mpr ⟨parsed, hparsed, rfl⟩
  have htakes : ModuleId.TakesScope reference := by
    intro path own hcut
    cases hcut
    exact ⟨"type=componentStylesheet", "v", { kind := some ModuleId.stylesheetType }, rfl,
      by decide, ⟨by decide, by decide⟩, rfl, rfl, rfl⟩
  obtain ⟨parsed', hparsed', -, hids⟩ := parse_url_of_styles hscope hfile hsize hcompiled
  obtain rfl : parsed = parsed' := by simpa [hparsed] using hparsed'
  obtain ⟨index, hnumber, hinside⟩ := (hids 0 _ _ rfl rfl).1 rfl
  obtain rfl : index = 0 := UInt64.toNat_inj.mp hnumber
  have houtside := ((hids 1 _ _ rfl rfl).2 reference rfl).1.mpr htakes
  exact ⟨settings, _, hsettings, hscope, hfile, hsize, hcompiled, _, _, rfl, hinside, houtside⟩

/-- A version behind the name of a stylesheet: the id is that of the plain file, so no scope token
reaches the stylesheet. -/
theorem parse_url_of_versioned_reference :
    let file : FilePath := ⟨"card.html"⟩
    let source : Text := "<p></p><style href=\"theme.css?v=1\"></style>"
    ∃ settings compiled resource, Options.resolve {} = .ok settings ∧
      settings.style.scope = none ∧ '?' ∉ file.text ∧
      Compile.ofSource parseMarkup settings .empty file source = .ok compiled ∧
      compiled.styles[0]? = some resource ∧
      ModuleId.parse resource.url = .ok ⟨⟨"theme.css"⟩, none⟩ := by
  intro file source
  obtain ⟨settings, hsettings, hscope⟩ :
      ∃ settings, Options.resolve {} = .ok settings ∧ settings.style.scope = none := ⟨_, rfl, rfl⟩
  have hfile : '?' ∉ file.text := by decide
  let reference : Text := "theme.css?v=1"
  let parsed : ParsedTemplate :=
    { stylesheets := [⟨reference, none, "css?v=1"⟩], scripts := [], body := "<p></p>" }
  have hparsed : (parseMarkup source).result = .ok parsed :=
    parseMarkup_eq_ok_iff.mpr ⟨by decide +kernel, by decide +kernel⟩
  have hcompiled : Compile.ofSource parseMarkup settings .empty file source = .ok _ :=
    Compile.ofSource_eq_ok_iff.mpr ⟨parsed, hparsed, rfl⟩
  have hwritable :
      (ModulePart.stylesheet (some (Compile.scopeToken settings file)) none).Writable :=
    Compile.writable_of_scopeToken hscope none
  have hcut : Text.cut '?' reference = some ("theme.css".toList, "v=1".toList) := by decide
  have hforeign : ∀ pair ∈ ModuleId.queryPairs "v=1", ModuleId.Query.IsForeign pair := by decide
  exact ⟨settings, _, _, hsettings, hscope, hfile, hcompiled, rfl,
    ModuleId.parse_externalStyleId_of_isForeign (hwritable _ rfl) hcut hforeign⟩

end ComponentLoader
