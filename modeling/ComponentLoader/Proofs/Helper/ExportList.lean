import ComponentLoader.Proofs.Helper.Exports
import ComponentLoader.Proofs.Helper.Line
import ComponentLoader.Proofs.Helper.Phrase
set_option autoImplicit false

/-!
# Export lists (SPEC §4.4)

A list of exports is written between braces, in any layout that keeps its words apart.  Each
specifier says which name it exports: the alias or else its own name, unless the specifier is about
a type or the name is `default`.  What is read from a list is one name for each specifier,
`reported`, and nothing else, whatever the layout is and whatever follows the list.  So a list is
read as it should be if each of its specifiers is, and that is settled here for every specifier.
-/

namespace ComponentLoader.Exports

/-! ## Specifiers -/

/-- The alias of a specifier, with the blanks around the word in front of it. -/
structure Alias where
  before : Gap
  after : Gap
  name : Word

/-- The word in front of the alias has a space directly on both sides. -/
def Alias.IsSpaced (as : Alias) : Prop :=
  as.before.text.getLast? = some ' ' ∧ as.after.text.head? = some ' '

instance (as : Alias) : Decidable as.IsSpaced :=
  inferInstanceAs (Decidable (_ ∧ _))

/-- What is exported by one item of a list. -/
structure Specifier where
  /-- the blanks behind the modifier `type`, if it is there -/
  typeGap? : Option Gap
  name : Word
  alias? : Option Alias

namespace Specifier

variable (specifier : Specifier)

/-- The name with the modifier in front of it. -/
def localPart : Phrase :=
  match specifier.typeGap? with
  | none => .word specifier.name
  | some gap => .more (.word .type) gap specifier.name

/-- A specifier as it is written. -/
def phrase : Phrase :=
  match specifier.alias? with
  | none => specifier.localPart
  | some as => .more (.more specifier.localPart as.before .as) as.after as.name

/-- The name by which the item is known outside. -/
def publicName : Text :=
  ((specifier.alias?.map Alias.name).getD specifier.name).text

/-- The name that the specifier exports, if it exports one that a helper can have: it is not about a
type, and the name is not the one of a default export. -/
def exported? : Option Text :=
  if specifier.typeGap? = none ∧ specifier.publicName ≠ "default".toList then
    some specifier.publicName
  else none

/-- The name that is read from the specifier. -/
def reported : Text :=
  specifier.phrase.taken.text

/-- The specifier exports a name, and that name is read from it: an alias has spaces before it, or
says the same as the name itself. -/
structure IsPlain : Prop where
  isValue : specifier.typeGap? = none
  isNamed : specifier.publicName ≠ "default".toList
  isSpaced : ∀ as ∈ specifier.alias?, as.IsSpaced ∨ as.name.text = specifier.name.text

theorem reported_of_isValue (h : specifier.typeGap? = none) :
    specifier.reported =
      match specifier.alias? with
      | none => specifier.name.text
      | some as => if as.IsSpaced then as.name.text else specifier.name.text := by
  unfold reported phrase localPart
  rw [h]
  cases specifier.alias? with
  | none => rfl
  | some as =>
      by_cases hspaced : as.IsSpaced
      · obtain ⟨hbefore, hafter⟩ := id hspaced
        simp [Phrase.taken, Phrase.alias?, Phrase.endsInAs, hbefore, hafter, hspaced]
      · have hnone : ¬(as.after.text.head? = some ' ' ∧ as.before.text.getLast? = some ' ') :=
          fun hand => hspaced hand.symm
        simp [Phrase.taken, Phrase.alias?, Phrase.endsInAs, Phrase.first, hnone, hspaced]

/-- A specifier is read as it should be exactly if it is plain. -/
theorem exported?_eq_reported_iff :
    specifier.exported? = some specifier.reported ↔ specifier.IsPlain := by
  constructor
  · intro h
    unfold exported? at h
    split at h
    · rename_i hkept
      obtain ⟨hvalue, hnamed⟩ := hkept
      refine ⟨hvalue, hnamed, fun as has => ?_⟩
      have hreported := (Option.some.inj h).trans (specifier.reported_of_isValue hvalue)
      rw [publicName, has] at hreported
      by_cases hspaced : as.IsSpaced
      · exact Or.inl hspaced
      · exact Or.inr (by simpa [hspaced] using hreported)
    · cases h
  · rintro ⟨hvalue, hnamed, hspaced⟩
    rw [exported?, if_pos ⟨hvalue, hnamed⟩, specifier.reported_of_isValue hvalue, publicName]
    cases halias : specifier.alias? with
    | none => rfl
    | some as =>
        rcases hspaced as halias with hspaced | hsame
        · simp [hspaced]
        · simp [hsame]

instance : Decidable specifier.IsPlain :=
  decidable_of_iff _ specifier.exported?_eq_reported_iff

end Specifier

/-! ## Passing over specifiers -/

/-- No form of export begins within the phrase where the keyword is one of its words. -/
def Phrase.IsQuiet : Phrase → Prop
  | .word _ => True
  | .more front _ w => front.IsQuiet ∧ (front.last.text = keyword.text → w.text ∉ formWords)

/-- A quiet phrase is passed over, in whatever lines its words stand. -/
theorem namesFrom_phrase {phrase : Phrase} (hquiet : phrase.IsQuiet) {rest : Text}
    (hrest : Text.EndsWord rest) (hafter : phrase.last.text = keyword.text → namesAfter rest = [])
    (atStart : Bool) : namesFrom atStart (phrase.text ++ rest) = namesFrom false rest := by
  induction phrase generalizing atStart rest with
  | word w =>
      exact namesFrom_word w hrest hafter atStart
  | more front gap w ih =>
      obtain ⟨hfront, hform⟩ := hquiet
      have hgap : front.last.text = keyword.text → namesAfter (gap.text ++ (w.text ++ rest)) = [] :=
        fun hlast => namesAfter_word gap.toBlanks w (hform hlast) hrest
      rw [Phrase.text, List.append_assoc, List.append_assoc,
        ih hfront (gap.endsWord_append _) hgap, namesFrom_blanks gap.toBlanks,
        namesFrom_word w hrest hafter]

namespace Specifier

/-- Behind a name there is only the word in front of an alias, which is no form of export. -/
theorem isQuiet_phrase (specifier : Specifier) : specifier.phrase.IsQuiet := by
  have has : Word.as.text ∉ formWords := by decide
  have htype : Word.type.text ≠ keyword.text := by decide
  have hkeyword : Word.as.text ≠ keyword.text := by decide
  have hlocal : specifier.localPart.IsQuiet := by
    unfold localPart
    cases specifier.typeGap? with
    | none => trivial
    | some gap => exact ⟨trivial, fun hlast => absurd hlast htype⟩
  unfold phrase
  cases specifier.alias? with
  | none => exact hlocal
  | some as => exact ⟨⟨hlocal, fun _ => has⟩, fun hlast => absurd hlast hkeyword⟩

end Specifier

/-! ## Items between commas -/

/-- What ends a piece of a list. -/
def IsPieceEnd (c : Char) : Prop :=
  c = ',' ∨ c = '}'

theorem IsPieceEnd.endsWord {c : Char} (h : IsPieceEnd c) (rest : Text) :
    Text.EndsWord (c :: rest) := by
  rcases h with rfl | rfl <;> exact Text.endsWord_cons (by decide +kernel) rest

theorem IsPieceEnd.namesFrom {c : Char} (h : IsPieceEnd c) (atStart : Bool) (rest : Text) :
    namesFrom atStart (c :: rest) = namesFrom false rest := by
  rcases h with rfl | rfl <;> exact namesFrom_cons_of_ne (by decide) (by decide) atStart rest

theorem IsPieceEnd.namesAfter {c : Char} (h : IsPieceEnd c) (blanks : Blanks) (rest : Text) :
    namesAfter (blanks.text ++ c :: rest) = [] := by
  -- the word that is missing there is no form of export
  show Exports.namesAfter (blanks.text ++ ([] ++ c :: rest)) = []
  refine namesAfter_eq_nil blanks nofun (by decide) (h.endsWord rest) ?_
  rintro d ⟨⟩
  rcases h with rfl | rfl <;> decide

/-- A piece of a list is passed over where it ends. -/
def IsPassedOver (piece : Text) : Prop :=
  ∀ atStart c rest, IsPieceEnd c → namesFrom atStart (piece ++ c :: rest) = namesFrom false rest

theorem isPassedOver_blanks (blanks : Blanks) : IsPassedOver blanks.text := by
  intro atStart c rest hc
  rw [namesFrom_blanks blanks, hc.namesFrom]

/-- Pieces with commas between them are passed over up to the closing brace. -/
theorem namesFrom_join {pieces : List Text} (h : ∀ piece ∈ pieces, IsPassedOver piece)
    (atStart : Bool) (rest : Text) :
    namesFrom atStart (Text.join [','] pieces ++ '}' :: rest) = namesFrom false rest := by
  induction pieces generalizing atStart with
  | nil => exact IsPieceEnd.namesFrom (.inr rfl) atStart rest
  | cons piece others ih =>
      have hpiece := h piece List.mem_cons_self
      cases others with
      | nil =>
          rw [Text.join_singleton]
          exact hpiece atStart '}' rest (.inr rfl)
      | cons next more =>
          rw [Text.join_cons_cons, List.append_assoc, List.append_assoc, List.singleton_append,
            hpiece atStart ',' _ (.inl rfl),
            ih fun other hmem => h other (List.mem_cons_of_mem _ hmem)]

/-- A specifier in its place in a list. -/
structure Item where
  before : Blanks
  specifier : Specifier
  after : Blanks

namespace Item

variable (item : Item)

/-- An item as it is written. -/
def text : Text :=
  item.before.text ++ (item.specifier.phrase.text ++ item.after.text)

theorem not_mem_text {c : Char} (hspace : Text.isSpace c = false)
    (hword : Text.isIdentifierChar c = false) : c ∉ item.text := by
  unfold text
  rw [List.mem_append, List.mem_append]
  exact not_or.mpr ⟨item.before.not_mem hspace,
    not_or.mpr ⟨item.specifier.phrase.not_mem_text hspace hword, item.after.not_mem hspace⟩⟩

theorem isPassedOver : IsPassedOver item.text := by
  intro atStart c rest hc
  have hends := item.after.endsWord_append (hc.endsWord rest)
  unfold text
  rw [List.append_assoc, List.append_assoc, namesFrom_blanks item.before,
    namesFrom_phrase item.specifier.isQuiet_phrase hends fun _ => hc.namesAfter item.after rest]
  exact isPassedOver_blanks item.after false c rest hc

theorem listedName?_text : listedName? item.text = some item.specifier.reported :=
  item.specifier.phrase.listedName?_text item.before item.after

end Item

/-! ## Lists -/

theorem listedName?_blanks (blanks : Blanks) : listedName? blanks.text = none := by
  have htrim : Text.trim (blanks.text ++ ([] ++ [])) = [] :=
    Text.trim_append_append blanks.isBlank rfl nofun nofun
  rw [List.append_nil, List.append_nil] at htrim
  unfold listedName?
  rw [htrim]
  rfl

/-- The names of a list whose pieces can be told apart. -/
theorem listedNames_join {pieces : List Text} (hcomma : ∀ piece ∈ pieces, ',' ∉ piece)
    (hbrace : ∀ piece ∈ pieces, '}' ∉ piece) (rest : Text) :
    listedNames (Text.join [','] pieces ++ '}' :: rest) = pieces.filterMap listedName? := by
  unfold listedNames
  rw [Text.cut_append_cons (Text.not_mem_join (by decide) hbrace)]
  cases pieces with
  | nil => rfl
  | cons piece others =>
      simp only [Text.splitOn_join (List.cons_ne_nil piece others) hcomma]

/-- A list of exports in some layout. -/
structure ExportList where
  indent : Blanks
  /-- the blanks in front of the opening brace -/
  gap : Blanks
  items : List Item
  /-- the blanks in front of the closing brace where they follow a comma, or
  where there is no item -/
  trailing? : Option Blanks

namespace ExportList

variable (list : ExportList)

/-- What stands between the commas. -/
def pieces : List Text :=
  list.items.map Item.text ++ (list.trailing?.map Blanks.text).toList

/-- A list from its opening brace on, with a text behind it. -/
def braced (rest : Text) : Text :=
  '{' :: (Text.join [','] list.pieces ++ '}' :: rest)

/-- A list as it is written. -/
def text : Text :=
  list.indent.text ++ (keyword.text ++ (list.gap.text ++ list.braced []))

/-- The specifiers in their order. -/
def specifiers : List Specifier :=
  list.items.map Item.specifier

theorem forall_mem_pieces {p : Text → Prop} (hitem : ∀ item : Item, p item.text)
    (hblanks : ∀ blanks : Blanks, p blanks.text) : ∀ piece ∈ list.pieces, p piece := by
  intro piece hmem
  rcases List.mem_append.mp hmem with hmem | hmem
  · obtain ⟨item, -, rfl⟩ := List.mem_map.mp hmem
    exact hitem item
  · obtain ⟨blanks, -, rfl⟩ := Option.map_eq_some_iff.mp (Option.mem_toList.mp hmem)
    exact hblanks blanks

theorem filterMap_pieces :
    list.pieces.filterMap listedName? = list.specifiers.map Specifier.reported := by
  have hitems : (list.items.map Item.text).filterMap listedName? =
      list.specifiers.map Specifier.reported := by
    rw [List.filterMap_map, specifiers, List.map_map, ← List.filterMap_eq_map]
    exact List.filterMap_congr fun item _ => item.listedName?_text
  have htrailing : (list.trailing?.map Blanks.text).toList.filterMap listedName? = [] := by
    cases list.trailing? with
    | none => rfl
    | some blanks => simp [listedName?_blanks]
  rw [pieces, List.filterMap_append, hitems, htrailing, List.append_nil]

theorem namesFrom_braced (atStart : Bool) (rest : Text) :
    namesFrom atStart (list.braced rest) = namesFrom false rest := by
  have hpassed := list.forall_mem_pieces Item.isPassedOver isPassedOver_blanks
  rw [braced, namesFrom_cons_of_ne (by decide) (by decide), namesFrom_join hpassed]

theorem namesAfter_braced (blanks : Blanks) (rest : Text) :
    namesAfter (blanks.text ++ list.braced rest) = list.specifiers.map Specifier.reported := by
  have hpieces {c : Char} (hspace : Text.isSpace c = false)
      (hword : Text.isIdentifierChar c = false) :
      ∀ piece ∈ list.pieces, c ∉ piece :=
    list.forall_mem_pieces (fun item => item.not_mem_text hspace hword) fun blanks =>
      blanks.not_mem hspace
  have hcomma := hpieces (c := ',') (by decide) (by decide +kernel)
  have hbrace := hpieces (c := '}') (by decide) (by decide +kernel)
  rw [braced, namesAfter_brace blanks, listedNames_join hcomma hbrace, filterMap_pieces]

/-- A list gives one name for each specifier, and what follows it gives its names as it would behind
any other part of a line. -/
theorem namesFrom_text (rest : Text) :
    namesFrom true (list.text ++ rest) =
      list.specifiers.map Specifier.reported ++ namesFrom false rest := by
  have htext : list.text ++ rest =
      list.indent.text ++ (keyword.text ++ (list.gap.text ++ list.braced rest)) := by
    simp [text, braced]
  have hends : Text.EndsWord (list.gap.text ++ list.braced rest) :=
    list.gap.endsWord_append (Text.endsWord_cons (by decide +kernel) _)
  have hhere : namesHere (keyword.text ++ (list.gap.text ++ list.braced rest)) =
      list.specifiers.map Specifier.reported := by
    rw [namesHere_word keyword hends, if_pos rfl, namesAfter_braced list list.gap]
  have hbehind : namesFrom false (keyword.text ++ (list.gap.text ++ list.braced rest)) =
      namesFrom false rest := by
    rw [namesFrom_append keyword.newline_not_mem, namesFrom_blanks list.gap, namesFrom_braced]
  rw [htext, namesFrom_blanks list.indent, Bool.true_or, namesFrom_true, hhere, hbehind]

/-- The names that a list gives are those that its specifiers export exactly if
all of them are plain. -/
theorem exported_eq_reported_iff :
    list.specifiers.filterMap Specifier.exported? = list.specifiers.map Specifier.reported ↔
      ∀ specifier ∈ list.specifiers, specifier.IsPlain := by
  rw [List.filterMap_eq_map_iff_forall_eq_some]
  exact forall₂_congr fun specifier _ => specifier.exported?_eq_reported_iff

end ExportList

end Exports

open Exports

/-- Whatever the layout of a list is and whatever follows it, one name is read for each
specifier, and a name that was read before is left out.  Before that is done, the names are those
that the specifiers export exactly if each specifier is plain; so a list of plain specifiers is
read as it should be. -/
theorem exportNames_list (list : ExportList) (rest : Text) :
    exportNames (list.text ++ rest) =
        (list.specifiers.map Specifier.reported ++ namesFrom false rest).eraseDups ∧
      (list.specifiers.filterMap Specifier.exported? = list.specifiers.map Specifier.reported ↔
        ∀ specifier ∈ list.specifiers, specifier.IsPlain) ∧
      ((∀ specifier ∈ list.specifiers, specifier.IsPlain) →
        exportNames (list.text ++ rest) =
          (list.specifiers.filterMap Specifier.exported? ++ namesFrom false rest).eraseDups) := by
  have hnames : exportNames (list.text ++ rest) =
      (list.specifiers.map Specifier.reported ++ namesFrom false rest).eraseDups := by
    rw [← list.namesFrom_text, ← distinct_eq_eraseDups]
    rfl
  have hexported := list.exported_eq_reported_iff
  exact ⟨hnames, hexported, fun hplain => by rw [hexported.mpr hplain, hnames]⟩

/-- A list over several lines, with blanks of all kinds, aliases, a name for a default export, the
keyword as a name, a repeated name and a comma at its end; behind it stands a further export. -/
theorem exportNames_list_over_lines :
    let code : Text := "\texport\n\x7b a\t,\n  b\n as  c,\n  export as d, c, default as e,\n\x7d"
    let rest : Text := " from \"m\";\nexport const f = 1\n"
    ∃ list : ExportList, list.text = code ∧
      (∀ specifier ∈ list.specifiers, specifier.IsPlain) ∧
      list.specifiers.filterMap Specifier.exported? =
        ["a".toList, "c".toList, "d".toList, "c".toList, "e".toList] ∧
      exportNames (code ++ rest) =
        ["a".toList, "c".toList, "d".toList, "e".toList, "f".toList] := by
  intro code rest
  let empty : Blanks := ⟨[], rfl⟩
  let space : Gap := ⟨⟨" ", by decide⟩, by decide⟩
  let line : Blanks := ⟨"\n", by decide⟩
  let indent : Blanks := ⟨"\n  ", by decide⟩
  let c : Word := ⟨"c", by decide +kernel⟩
  let list : ExportList :=
    { indent := ⟨"\t", by decide⟩
      gap := line
      items :=
        [⟨space.toBlanks, ⟨none, ⟨"a", by decide +kernel⟩, none⟩, ⟨"\t", by decide⟩⟩,
          ⟨indent, ⟨none, ⟨"b", by decide +kernel⟩,
            some ⟨⟨⟨"\n ", by decide⟩, by decide⟩, ⟨⟨"  ", by decide⟩, by decide⟩, c⟩⟩, empty⟩,
          ⟨indent, ⟨none, ⟨"export", by decide +kernel⟩,
            some ⟨space, space, ⟨"d", by decide +kernel⟩⟩⟩, empty⟩,
          ⟨space.toBlanks, ⟨none, c, none⟩, empty⟩,
          ⟨space.toBlanks, ⟨none, ⟨"default", by decide +kernel⟩,
            some ⟨space, space, ⟨"e", by decide +kernel⟩⟩⟩, empty⟩]
      trailing? := some line }
  have htext : list.text = code := by decide +kernel
  have hplain : ∀ specifier ∈ list.specifiers, specifier.IsPlain := by decide +kernel
  have hexported : list.specifiers.filterMap Specifier.exported? =
      ["a".toList, "c".toList, "d".toList, "c".toList, "e".toList] := by decide +kernel
  have hrest : namesFrom false rest = ["f".toList] := by decide +kernel
  have hnames := (exportNames_list list rest).2.2 hplain
  rw [htext, hexported, hrest] at hnames
  exact ⟨list, htext, hplain, hexported, hnames.trans (by decide +kernel)⟩

/-- Behind a tab the alias is not read, a default export gives a helper with the name `default`, and
of an export of types the modifier or the alias is read. -/
theorem exportNames_list_misread :
    ∃ tabbed unnamed : ExportList,
      tabbed.text ++ ";\n".toList = "export \x7b a\tas b \x7d;\n".toList ∧
      tabbed.specifiers.filterMap Specifier.exported? = ["b".toList] ∧
      exportNames "export \x7b a\tas b \x7d;\n" = ["a".toList] ∧
      unnamed.text ++ ";\n".toList =
        "export \x7b a as default, type T, type U as V \x7d;\n".toList ∧
      unnamed.specifiers.filterMap Specifier.exported? = [] ∧
      exportNames "export \x7b a as default, type T, type U as V \x7d;\n" =
        ["default".toList, "type".toList, "V".toList] := by
  let empty : Blanks := ⟨[], rfl⟩
  let space : Gap := ⟨⟨" ", by decide⟩, by decide⟩
  let a : Word := ⟨"a", by decide +kernel⟩
  let tabbed : ExportList :=
    { indent := empty
      gap := space.toBlanks
      items :=
        [⟨space.toBlanks, ⟨none, a,
          some ⟨⟨⟨"\t", by decide⟩, by decide⟩, space, ⟨"b", by decide +kernel⟩⟩⟩, space.toBlanks⟩]
      trailing? := none }
  let unnamed : ExportList :=
    { indent := empty
      gap := space.toBlanks
      items :=
        [⟨space.toBlanks, ⟨none, a, some ⟨space, space, ⟨"default", by decide +kernel⟩⟩⟩, empty⟩,
          ⟨space.toBlanks, ⟨some space, ⟨"T", by decide +kernel⟩, none⟩, empty⟩,
          ⟨space.toBlanks, ⟨some space, ⟨"U", by decide +kernel⟩,
            some ⟨space, space, ⟨"V", by decide +kernel⟩⟩⟩, space.toBlanks⟩]
      trailing? := none }
  exact ⟨tabbed, unnamed, by decide +kernel⟩

end ComponentLoader
