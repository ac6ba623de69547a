import ComponentLoader.Proofs.Markup.Name
import ComponentLoader.Proofs.Text.Position
import ComponentLoader.Template.Compile
import Mathlib.Data.List.Forall2
set_option autoImplicit false

/-!
# Where the diagnostics of a template point (SPEC §4.4)

A warning has the offset of a name in a start tag, and a name holds no end of a line, so every
warning of a source that positions reach becomes a diagnostic.  It is at the line and the column
of the name (`IsDiagnosis`).  An element that cannot be completed begins with `<`, so the error
about it has a place too.
-/

namespace ComponentLoader

namespace Compile

open Markup

/-- A diagnostic has the words of a warning, and it is at the name of the attribute that
the warning is about. -/
def IsDiagnosis (file : FilePath) (source : Text) (warning : TemplateWarning)
    (diagnostic : Diagnostic) : Prop :=
  ∃ place kind before name after,
    diagnostic = { severity := .warning, code := .templateWarning, message := warning.message,
                   file := some file, location := some place } ∧
    warning = ⟨Element.advice kind, Text.byteSize before⟩ ∧
    IsAttributeName source kind before name after ∧
    Text.asciiLower name = Element.discouraged kind ∧
    Text.StandsAt source place before (name ++ after) ∧ Text.ReadsAt source place name

theorem not_endsRow_of_isNameChar {c : Char} (h : isNameChar c = true) : ¬Text.EndsRow c := by
  rintro (rfl | rfl)
  · revert h
    decide
  · revert h
    decide

theorem isNameChar_of_isAttributeName {source before name after : Text} {kind : ElementKind}
    (h : IsAttributeName source kind before name after) : ∀ c ∈ name, isNameChar c = true := by
  obtain ⟨document, element, front, lead, rest, back, -, -, -, -, -, -, hname, -⟩ := h
  exact hname.isName.all

/-- No warning of the parser is dropped, and each is located at what it is about. -/
theorem exists_isDiagnosis {file : FilePath} {source : Text}
    (hsize : Text.byteSize source ≤ maxOffset)
    {warning : TemplateWarning} (hmem : warning ∈ (parseMarkup source).warnings) :
    ∃ diagnostic, diagnose? file source warning = some diagnostic ∧
      IsDiagnosis file source warning diagnostic := by
  have hcut : IsCut 0 source (Document.ofText source) := isCut_iff.mpr rfl
  obtain ⟨kind, before, name, after, hname, hlower, rfl⟩ := hcut.exists_isAttributeName hmem
  have hchars := isNameChar_of_isAttributeName hname
  have hends : ∀ c ∈ name, ¬Text.EndsRow c := fun c hc => not_endsRow_of_isNameChar (hchars c hc)
  have hsource : source = before ++ (name ++ after) := by
    obtain ⟨-, -, -, -, -, -, -, -, -, -, -, -, -, -, hsource⟩ := hname
    exact hsource
  obtain ⟨c, more, hcons⟩ : ∃ c more, name = c :: more := by
    cases hcase : name with
    | nil =>
        rw [hcase] at hlower
        cases kind <;> cases hlower
    | cons c more => exact ⟨c, more, rfl⟩
  have hwhole : source = before ++ c :: (more ++ after) := by rw [hsource, hcons]; rfl
  obtain ⟨place, hlocate, hstands⟩ :=
    Text.exists_standsAt (hends c (by simp [hcons])) (hwhole ▸ hsize)
  rw [← hwhole] at hlocate hstands
  have hstands : Text.StandsAt source place before (name ++ after) := by
    rw [hcons]
    exact hstands
  refine ⟨_, by rw [diagnose?, hlocate]; rfl, place, kind, before, name, after, rfl, rfl, hname,
    hlower, hstands, hstands.readsAt hends⟩

theorem forall₂_filterMap {α β : Type} {R : α → β → Prop} {f : α → Option β} {xs : List α}
    (h : ∀ x ∈ xs, ∃ y, f x = some y ∧ R x y) : List.Forall₂ R xs (xs.filterMap f) := by
  induction xs with
  | nil => exact .nil
  | cons x rest ih =>
      obtain ⟨hx, hrest⟩ := List.forall_mem_cons.mp h
      obtain ⟨y, hy, hR⟩ := hx
      rw [List.filterMap_cons_some hy]
      exact .cons hR (ih hrest)

/-- The error about a source that cannot be parsed is at the `<` of the element that it is about. -/
theorem exists_place_of_fault (file : FilePath) {source : Text}
    (hsize : Text.byteSize source ≤ maxOffset) {fault : MarkupFault}
    (hfault : (parseMarkup source).result = .error fault) :
    ∃ place before rest, TemplateError.ofMarkup file source fault = .parse file (some place) fault ∧
      Breaks (Text.byteSize before) ('<' :: rest) fault ∧
      Text.StandsAt source place before ('<' :: rest) ∧ Text.ReadsAt source place ['<'] := by
  have hcut : IsCut 0 source (Document.ofText source) := isCut_iff.mpr rfl
  obtain ⟨front, back, hsource, hbreaks⟩ :=
    hcut.exists_of_fault? (parseMarkup_eq_error_iff.mp hfault)
  rw [Nat.zero_add] at hbreaks
  obtain ⟨rest, rfl, hoffset⟩ := hbreaks.exists_eq_cons
  have hend : ¬Text.EndsRow '<' := by
    unfold Text.EndsRow
    decide
  obtain ⟨place, hlocate, hstands⟩ := Text.exists_standsAt hend (hsource ▸ hsize)
  rw [← hsource] at hlocate hstands
  refine ⟨place, front, rest, ?_, hbreaks, hstands, ?_⟩
  · rw [TemplateError.ofMarkup, hoffset, hlocate]
  · have hlead : Text.StandsAt source place front (['<'] ++ rest) := hstands
    exact hlead.readsAt fun c hc => List.mem_singleton.mp hc ▸ hend

end Compile

theorem compile_of_parsed {files : FileTree} {file : FilePath} {source : Text}
    (hread : files.readText file = .ok source) (settings : Settings) (helpers : HelperIndex)
    {parsed : ParsedTemplate} (hparsed : (parseMarkup source).result = .ok parsed) :
    compile parseMarkup settings helpers files file =
      .ok (Compile.ofParsed settings helpers file source (parseMarkup source).warnings parsed) := by
  rw [compile, hread]
  simp only [Compile.ofSource, hparsed]

/-- If positions reach a source, then compiling it loses no place.  The warnings of the parser are
in the order of the source, and where the source is parsed there is one diagnostic for each of them,
at the name of the attribute that it is about.  Where it is not, the error is at the `<` of the
element that cannot be completed. -/
theorem compile_diagnostics_located {files : FileTree} {file : FilePath} {source : Text}
    (hread : files.readText file = .ok source) (hsize : Text.byteSize source < maxOffset)
    (settings : Settings) (helpers : HelperIndex) :
    (parseMarkup source).warnings.Pairwise (fun first second => first.offset < second.offset) ∧
    (∀ parsed, (parseMarkup source).result = .ok parsed →
      ∃ compiled, compile parseMarkup settings helpers files file = .ok compiled ∧
        List.Forall₂ (Compile.IsDiagnosis file source) (parseMarkup source).warnings
          compiled.diagnostics) ∧
    ∀ fault, (parseMarkup source).result = .error fault →
      ∃ place before rest,
        compile parseMarkup settings helpers files file = .error (.parse file (some place) fault) ∧
        Markup.Breaks (Text.byteSize before) ('<' :: rest) fault ∧
        Text.StandsAt source place before ('<' :: rest) ∧ Text.ReadsAt source place ['<'] := by
  have hcut : Markup.IsCut 0 source (Markup.Document.ofText source) := Markup.isCut_iff.mpr rfl
  refine ⟨hcut.pairwise_warnings, fun parsed hparsed => ?_, fun fault hfault => ?_⟩
  · refine ⟨_, compile_of_parsed hread settings helpers hparsed, ?_⟩
    exact Compile.forall₂_filterMap fun warning hmem => Compile.exists_isDiagnosis hsize.le hmem
  · obtain ⟨place, before, rest, herror, hplace⟩ :=
      Compile.exists_place_of_fault file hsize.le hfault
    refine ⟨place, before, rest, ?_, hplace⟩
    rw [compile, hread]
    simp only [Compile.ofSource, hfault, herror]

/-- A template in which a discouraged attribute stands on a line of its own. -/
def spreadTree : FileTree where
  entries := [
    ([], ⟨1, 0, .directory⟩),
    (["card.html".toList], ⟨2, 0, .file (Text.utf8 "ä\r<style lang='ö'\r\n Scoped></style>")⟩)]
  workingNames := []
  nextInode := 3
  clock := 1

/-- The attribute is on the third line, behind a blank. -/
theorem compile_diagnostics_located_spreadTree :
    let source : Text := "ä\r<style lang='ö'\r\n Scoped></style>"
    spreadTree.readText ⟨"card.html"⟩ = .ok source ∧ Text.byteSize source < maxOffset ∧
      (parseMarkup source).warnings.length = 1 ∧
      ∀ settings helpers, ∃ compiled,
        compile parseMarkup settings helpers spreadTree ⟨"card.html"⟩ = .ok compiled ∧
        List.Forall₂ (Compile.IsDiagnosis ⟨"card.html"⟩ source) (parseMarkup source).warnings
          compiled.diagnostics ∧
        compiled.diagnostics.map Diagnostic.location = [some ⟨2, 1⟩] := by
  intro source
  have hread : spreadTree.readText ⟨"card.html"⟩ = .ok source := by rfl
  have hsize : Text.byteSize source < maxOffset := by decide
  have hparsed : (parseMarkup source).result =
      .ok { stylesheets := [⟨none, some [], "ö"⟩], body := "ä\r" } := by decide +kernel
  refine ⟨hread, hsize, by decide +kernel, fun settings helpers => ?_⟩
  obtain ⟨compiled, hcompile, hdiagnoses⟩ :=
    (compile_diagnostics_located hread hsize settings helpers).2.1 _ hparsed
  refine ⟨compiled, hcompile, hdiagnoses, ?_⟩
  rw [compile_of_parsed hread settings helpers hparsed] at hcompile
  cases hcompile
  change ((parseMarkup source).warnings.filterMap
    (Compile.diagnose? ⟨"card.html"⟩ source)).map Diagnostic.location = [some ⟨2, 1⟩]
  decide +kernel

end ComponentLoader
