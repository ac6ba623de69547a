import ComponentLoader.Module.Request
import ComponentLoader.Proofs.FilePath.Step
import ComponentLoader.Proofs.Module.Id
import ComponentLoader.Text.Alphanumeric
import Mathlib.Data.List.TakeWhile
set_option autoImplicit false

/-!
# Template extensions (SPEC §6, §7.4)

Files are told apart by their kind: what stands behind the last dot of the file name, in lower case.
So a kind holds neither a dot nor a slash (`FilePath.endsName_of_kind?`), and every text without
them is the kind of the files whose names end in it (`FilePath.kind?_append_cons`).

Options are refused for an extension that is empty or that of a stylesheet, and for nothing else.
An extension with a dot or a slash in it is accepted and compared with kinds, none of which it can
be, so it makes no file a template.
-/

namespace ComponentLoader

/-! ## Kinds of files -/

namespace FilePath

/-- The text can stand behind the last dot of a file name. -/
def EndsName (extension : Text) : Prop :=
  '.' ∉ extension ∧ '/' ∉ extension

instance (extension : Text) : Decidable (EndsName extension) :=
  inferInstanceAs (Decidable (_ ∧ _))

/-- What is behind the last dot of a name, if the dot is not at the front. -/
theorem splitName_eq_some_iff {name extension : Text} :
    (splitName name).2 = some extension ↔
      ∃ stem, stem ≠ [] ∧ '.' ∉ extension ∧ name = stem ++ '.' :: extension := by
  have hwhole : name.reverse.takeWhile (· ≠ '.') ++ name.reverse.dropWhile (· ≠ '.') =
      name.reverse :=
    List.takeWhile_append_dropWhile
  constructor
  · intro h
    unfold splitName at h
    split at h
    · rename_i dot c before hdrop
      cases h
      have hdot : dot = '.' := by
        have hhead := List.head?_dropWhile_not (fun d : Char => decide (d ≠ '.')) name.reverse
        rw [hdrop] at hhead
        simpa using hhead
      rw [hdrop, hdot] at hwhole
      refine ⟨(c :: before).reverse, by simp, ?_, ?_⟩
      · rw [List.mem_reverse]
        intro hmem
        simpa using List.mem_takeWhile_imp hmem
      · have hname := congrArg List.reverse hwhole.symm
        rw [List.reverse_reverse] at hname
        simpa using hname
    · cases h
  · rintro ⟨stem, hstem, hdot, rfl⟩
    obtain ⟨c, before, hc⟩ := List.exists_cons_of_ne_nil (List.reverse_ne_nil_iff.mpr hstem)
    have hbehind : ∀ d ∈ extension.reverse, (decide (d ≠ '.')) = true := by
      intro d hmem
      rw [List.mem_reverse] at hmem
      exact decide_eq_true fun heq => hdot (heq ▸ hmem)
    unfold splitName
    rw [List.reverse_append, List.reverse_cons, List.append_assoc, List.singleton_append,
      List.dropWhile_append_of_pos hbehind, List.takeWhile_append_of_pos hbehind, hc]
    simp

/-- A file name is one step of its path. -/
theorem not_mem_fileName? {path : FilePath} {name : Text} (h : path.fileName? = some name) :
    '/' ∉ name := by
  unfold fileName? at h
  split at h
  · rename_i hlast
    cases h
    have hstep : Segment.name name ∈ path.steps :=
      List.mem_filter.mpr ⟨List.mem_of_getLast? hlast, rfl⟩
    exact (isReadBack_of_mem_steps hstep).2
  · cases h

/-- A text that begins like a name and has no slash is a file name. -/
theorem fileName?_of_not_mem {c : Char} {rest : Text} (hdot : c ≠ '.') (hslash : '/' ∉ c :: rest) :
    fileName? ⟨c :: rest⟩ = some (c :: rest) := by
  have hfront : front (c :: rest) = ([], c :: rest) := by
    have hroot : c ≠ '/' := fun heq => hslash (heq ▸ List.mem_cons_self)
    rw [front]
    · exact fun _ heq => hroot (List.cons.inj heq).1
    · exact fun heq => hdot (List.cons.inj heq).1
    · exact fun _ heq => hdot (List.cons.inj heq).1
  have hsegments : segments ⟨c :: rest⟩ = [.name (c :: rest)] := by
    unfold segments
    rw [hfront]
    simp [Text.splitOn_of_not_mem hslash, bodySegment?, hdot]
  unfold fileName?
  rw [hsegments]
  rfl

/-- A dot or a slash is no other character in lower case. -/
theorem endsName_asciiLower_iff {extension : Text} :
    EndsName (Text.asciiLower extension) ↔ EndsName extension :=
  and_congr (not_congr (Text.mem_asciiLower_iff rfl (by decide)))
    (not_congr (Text.mem_asciiLower_iff rfl (by decide)))

/-- A kind holds neither a dot nor a slash. -/
theorem endsName_of_kind? {path : FilePath} {kind : Text} (h : path.kind? = some kind) :
    EndsName kind := by
  obtain ⟨extension, hextension, rfl⟩ := Option.map_eq_some_iff.mp h
  obtain ⟨name, hname, hsplit⟩ := Option.bind_eq_some_iff.mp hextension
  obtain ⟨stem, -, hdot, rfl⟩ := splitName_eq_some_iff.mp hsplit
  have hslash := not_mem_fileName? hname
  rw [endsName_asciiLower_iff]
  exact ⟨hdot, fun hmem => hslash (by simp [hmem])⟩

/-- The text is a name in front of an extension: letters and numbers only, and not empty. -/
def IsStem (stem : Text) : Prop :=
  stem ≠ [] ∧ stem.all Text.isAlphanumeric = true

instance (stem : Text) : Decidable (IsStem stem) :=
  inferInstanceAs (Decidable (_ ∧ _))

theorem IsStem.not_mem {stem : Text} (h : IsStem stem) {c : Char}
    (hc : Text.isAlphanumeric c = false) : c ∉ stem := by
  intro hmem
  rw [List.all_eq_true.mp h.2 c hmem] at hc
  cases hc

theorem kind?_append_cons {stem extension : Text} (hstem : IsStem stem)
    (hends : EndsName extension) :
    kind? ⟨stem ++ '.' :: extension⟩ = some (Text.asciiLower extension) := by
  have hdot : '.' ∉ stem := hstem.not_mem (by decide +kernel)
  have hslash : '/' ∉ stem ++ '.' :: extension := by
    have hnone : '/' ∉ stem := hstem.not_mem (by decide +kernel)
    simp [hnone, hends.2]
  have hname : fileName? ⟨stem ++ '.' :: extension⟩ = some (stem ++ '.' :: extension) := by
    obtain ⟨c, rest, rfl⟩ := List.exists_cons_of_ne_nil hstem.1
    refine fileName?_of_not_mem ?_ hslash
    rintro rfl
    exact hdot List.mem_cons_self
  unfold kind? extension?
  rw [hname, Option.bind_some, splitName_eq_some_iff.mpr ⟨stem, hstem.1, hends.1, rfl⟩]
  rfl

end FilePath

/-! ## Extensions that are accepted -/

/-- The extensions that options name, as they are spelled there. -/
def Options.extensions (options : Options) : List Text :=
  options.templateExtensions.getD ["html"]

/-- An extension without the dots in front of it. -/
def undotted (extension : Text) : Text :=
  extension.dropWhile (· = '.')

theorem normalizeExtension_eq (extension : Text) :
    normalizeExtension extension = Text.asciiLower (undotted extension) := rfl

section

variable {options : Options} {settings : Settings}

/-- Accepted extensions are all kept, none of them is empty and none is that of a stylesheet. -/
theorem Options.resolve_eq_ok (h : options.resolve = .ok settings) :
    settings.templateExtensions = options.extensions.map normalizeExtension ∧
      ∀ extension ∈ settings.templateExtensions,
        extension ≠ [] ∧ isStylesheetExtension extension = false := by
  unfold resolve resolveExtensions at h
  dsimp only at h
  split at h
  · cases h
  · split at h
    · cases h
    · rename_i hrefuse
      cases h
      exact ⟨rfl, refuseExtension?_eq_none_iff.mp hrefuse⟩

/-- A file is a template exactly if its kind is one of the extensions. -/
theorem Settings.isTemplate_iff {path : FilePath} :
    settings.isTemplate path = true ↔
      ∃ extension ∈ settings.templateExtensions, path.kind? = some extension := by
  unfold isTemplate
  cases path.kind? with
  | none => simp
  | some kind => simp [isTemplateExtension, eq_comm]

theorem Request.classify_file_iff {path : FilePath} :
    classify settings ⟨path, none⟩ = some .template ↔ settings.isTemplate path = true := by
  unfold classify Settings.isTemplate
  cases path.kind? with
  | none => simp
  | some kind =>
      cases hkind : settings.isTemplateExtension kind with
      | true => simp [hkind]
      | false => cases hstyle : isStylesheetExtension kind <;> simp [hkind, hstyle]

/-- Templates are not asked for as stylesheets. -/
theorem Request.classify_ne_stylesheet {path : FilePath} (h : settings.isTemplate path = true)
    (part : Option ModulePart) (scope : Option Text) :
    classify settings ⟨path, part⟩ ≠ some (.stylesheet scope) := by
  unfold Settings.isTemplate at h
  unfold classify
  cases hkind : path.kind? with
  | none => simp
  | some kind =>
      rw [hkind] at h
      dsimp only at h ⊢
      rw [if_pos h]
      cases part with
      | none => simp
      | some part => cases part <;> simp [ModulePart.request]

/-- An extension can be the kind of a file exactly if no dot and no slash follow the dots in front
of it, and then it is the kind of all files with a name that ends in it. -/
theorem kind?_eq_normalizeExtension_iff {stem : Text} (hstem : FilePath.IsStem stem)
    (extension : Text) :
    FilePath.kind? ⟨stem ++ '.' :: undotted extension⟩ = some (normalizeExtension extension) ↔
      FilePath.EndsName (undotted extension) := by
  rw [normalizeExtension_eq]
  constructor
  · intro hkind
    exact FilePath.endsName_asciiLower_iff.mp (FilePath.endsName_of_kind? hkind)
  · exact FilePath.kind?_append_cons hstem

/-- Of the extensions of accepted options, those with neither a dot nor a slash behind the dots in
front of them make every file whose name ends in them a template.  A file whose name ends in one of
the others is a template only if its kind is an extension of the first sort.  What is a template is
asked for as one by a plain request, and the text of its path is that request if it has no question
mark.  No template is a stylesheet, nor ever asked for as one. -/
theorem template_extensions_of_resolve (h : options.resolve = .ok settings) :
    (∀ extension ∈ options.extensions, ∀ stem, FilePath.IsStem stem →
      let file : FilePath := ⟨stem ++ '.' :: undotted extension⟩
      (settings.isTemplate file = true ↔
        FilePath.EndsName (undotted extension) ∨
          ∃ other ∈ options.extensions, FilePath.EndsName (undotted other) ∧
            file.kind? = some (normalizeExtension other)) ∧
      (Request.classify settings ⟨file, none⟩ = some .template ↔ settings.isTemplate file = true) ∧
      (ModuleId.parse file.text = .ok ⟨file, none⟩ ↔ '?' ∉ undotted extension)) ∧
    ∀ path, settings.isTemplate path = true →
      (∀ kind, path.kind? = some kind → isStylesheetExtension kind = false) ∧
      ∀ part scope, Request.classify settings ⟨path, part⟩ ≠ some (.stylesheet scope) := by
  obtain ⟨hextensions, husable⟩ := Options.resolve_eq_ok h
  refine ⟨fun extension hmem stem hstem => ⟨?_, Request.classify_file_iff, ?_⟩,
    fun path htemplate => ⟨fun kind hkind => ?_, Request.classify_ne_stylesheet htemplate⟩⟩
  · rw [Settings.isTemplate_iff, hextensions]
    simp only [List.mem_map, exists_exists_and_eq_and]
    constructor
    · rintro ⟨other, hother, hkind⟩
      have hends := FilePath.endsName_of_kind? hkind
      rw [normalizeExtension_eq, FilePath.endsName_asciiLower_iff] at hends
      exact Or.inr ⟨other, hother, hends, hkind⟩
    · rintro (hends | ⟨other, hother, -, hkind⟩)
      · exact ⟨extension, hmem, (kind?_eq_normalizeExtension_iff hstem extension).mpr hends⟩
      · exact ⟨other, hother, hkind⟩
  · have hmark : '?' ∉ stem := hstem.not_mem (by decide +kernel)
    rw [ModuleId.parse_path_iff]
    simp [hmark]
  · obtain ⟨extension, hmem, hextension⟩ := Settings.isTemplate_iff.mp htemplate
    rw [hkind] at hextension
    cases hextension
    exact (husable kind hmem).2

end

/-- Options with an extension in upper case behind dots, one with a dot in it, one with a
slash and one with a question mark.  A file whose name ends in the second one is a
template for the first one. -/
theorem template_extensions_of_resolve_mixed :
    let options : Options := { templateExtensions := some ["..HTML", "my.html", "a/b", "c?d"] }
    let file (extension : Text) : FilePath := ⟨"größe1".toList ++ '.' :: undotted extension⟩
    ∃ settings, options.resolve = .ok settings ∧
      settings.templateExtensions = ["html".toList, "my.html", "a/b", "c?d"] ∧
      (file "..HTML").text = "größe1.HTML".toList ∧
      settings.isTemplate (file "..HTML") = true ∧
      Request.classify settings ⟨file "..HTML", none⟩ = some .template ∧
      settings.isTemplate (file "my.html") = true ∧
      settings.isTemplate (file "a/b") = false ∧
      Request.classify settings ⟨file "c?d", none⟩ = some .template ∧
      ModuleId.parse (file "c?d").text ≠ .ok ⟨file "c?d", none⟩ ∧
      ∀ part scope,
        Request.classify settings ⟨file "my.html", part⟩ ≠ some (.stylesheet scope) := by
  intro options file
  obtain ⟨settings, hsettings, hkept⟩ : ∃ settings, options.resolve = .ok settings ∧
      settings.templateExtensions = ["html".toList, "my.html", "a/b", "c?d"] := ⟨_, rfl, rfl⟩
  obtain ⟨hfiles, hapart⟩ := template_extensions_of_resolve hsettings
  have hstem : FilePath.IsStem "größe1" := by decide +kernel
  have hupper := hfiles "..HTML" (by decide) _ hstem
  have hdot := hfiles "my.html" (by decide) _ hstem
  have hslash := hfiles "a/b" (by decide) _ hstem
  have hmark := hfiles "c?d" (by decide) _ hstem
  have htemplate : settings.isTemplate (file "my.html") = true :=
    hdot.1.mpr (Or.inr ⟨"..HTML", by decide, by decide, by decide⟩)
  refine ⟨settings, hsettings, hkept, by decide, hupper.1.mpr (Or.inl (by decide)),
    hupper.2.1.mpr (hupper.1.mpr (Or.inl (by decide))), htemplate, ?_,
    hmark.2.1.mpr (hmark.1.mpr (Or.inl (by decide))),
    fun hparse => hmark.2.2.mp hparse (by decide), (hapart _ htemplate).2⟩
  rw [Bool.eq_false_iff, ne_eq, hslash.1]
  decide

/-- An extension with a dot in it is accepted, but the file whose name ends in it is not a template
and not handled at all. -/
theorem template_extension_with_dot :
    let options : Options := { templateExtensions := some ["component.html"] }
    let file : FilePath := ⟨"card.component.html"⟩
    ∃ settings, options.resolve = .ok settings ∧ "component.html".toList ∈ options.extensions ∧
      FilePath.IsStem "card" ∧ file.text = "card".toList ++ '.' :: undotted "component.html" ∧
      settings.isTemplate file = false ∧ Request.classify settings ⟨file, none⟩ = none ∧
      ModuleId.parse file.text = .ok ⟨file, none⟩ := by
  intro options file
  exact ⟨_, rfl, by decide, by decide +kernel, by decide, by decide, by decide, by decide⟩

end ComponentLoader
