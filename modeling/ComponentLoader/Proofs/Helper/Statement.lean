import ComponentLoader.Proofs.Helper.Exports
import ComponentLoader.Proofs.Module.Header
set_option autoImplicit false

/-!
# Statements that take a helper (SPEC §4.4)

In the statement that takes a helper its name is the only text that stands outside a literal.  The
names that are found in a script are parts of it, but however the script is made they bring
nothing into the statement that code is read by: between the letters of the names, the statement
is the same for all of them.
-/

namespace ComponentLoader

namespace Statement

/-- Characters that mean something in code where they stand outside a literal: quotes, brackets,
separators and line ends. -/
def punctuation : Text := "\"'`\x7b\x7d()[]<>,;:.=*/\\ \t\n\r\u2028\u2029"

theorem isIdentifierChar_of_mem_punctuation {c : Char} (h : c ∈ punctuation) :
    Text.isIdentifierChar c = false := by
  have hall : (punctuation.all fun c => !Text.isIdentifierChar c) = true := by decide +kernel
  simpa using List.all_eq_true.mp hall c h

/-- What a statement holds beside letters, numbers, `_` and `$`. -/
def frame (statement : Statement) : Text :=
  statement.line.filter fun c => !Text.isIdentifierChar c

/-- The name of a helper adds nothing to the frame of its statement. -/
theorem frame_helper {name : Text} (h : name.IsIdentifier) (file : Text) :
    (helper name file).frame = (helper [] file).frame := by
  have hname : name.filter (fun c => !Text.isIdentifierChar c) = [] := by
    obtain ⟨text, htext⟩ := h
    obtain ⟨-, hchars, -⟩ := Text.identifier?_eq_some htext
    exact List.filter_eq_nil_iff.mpr fun c hmem => by simp [hchars c hmem]
  unfold frame line
  simp only [List.filter_append, hname, List.filter_nil]

end Statement

/-- The names that are found in any script are different from each other.  Each is a part of the
script that is not empty, holds letters, numbers, `_` and `$` only and does not begin with a digit.
So it can stand in code as it is: the statement that takes the helper is one line, whatever follows
it, and no punctuation of the statement comes from the name. -/
theorem exportNames_nodup_and_plain (script : Text) :
    (exportNames script).Nodup ∧
      ∀ name ∈ exportNames script,
        name ≠ [] ∧ name <:+: script ∧
          (∀ c ∈ name, Text.isAlphanumeric c = true ∨ c = '_' ∨ c = '$') ∧
          (∀ c ∈ name.head?, c.isDigit = false) ∧
          (∀ c ∈ name, c ∉ Statement.punctuation) ∧
          ∀ file, (Statement.helper name file).frame = (Statement.helper [] file).frame ∧
            ∀ after, Text.lines ((Statement.helper name file).line ++ '\n' :: after) =
              (Statement.helper name file).line :: Text.lines after := by
  refine ⟨Exports.nodup_distinct _, fun name hname => ?_⟩
  have hfound := foundIn_of_exportNames hname
  have hidentifier := hfound.isIdentifier
  have ⟨part, _, hpart⟩ := hfound
  obtain ⟨hne, hchars, hdigit, -⟩ := Text.identifier?_eq_some hpart
  refine ⟨hne, hfound.isInfix, fun c hmem => ?_, hdigit, fun c hmem hmark => ?_,
    fun file => ⟨Statement.frame_helper hidentifier file, fun after => ?_⟩⟩
  · simpa [Text.isIdentifierChar, or_assoc] using hchars c hmem
  · exact hidentifier.not_mem (Statement.isIdentifierChar_of_mem_punctuation hmark) hmem
  · have honeLine : (Statement.helper name file).IsOneLine :=
      hidentifier.not_mem (by decide +kernel)
    exact Statement.lines_line_append honeLine after

/-- A script whose exports are of every form, with names that are repeated, cut off or left out. -/
theorem exportNames_nodup_and_plain_mixed :
    let script : Text :=
      "export \x7b a, b as größe, 'c', 1d, a as x-y \x7d;\nexport * as $ns from \"m\";\n" ++
        "export async function* _load() \x7b\x7d\n" ++
        "export const \x7b p: q = \"\x7d\", ...r \x7d = s\n" ++
        "export let [a, t = 2] = u\nexport default 3\n"
    let names : List Text := ["a", "größe", "x", "$ns", "_load", "q", "t"]
    exportNames script = names ∧ names.Nodup ∧
      ∀ name ∈ names, name <:+: script ∧ (∀ c ∈ name, c ∉ Statement.punctuation) ∧
        Text.lines ((Statement.helper name "h.ts").line ++ ['\n']) =
          [(Statement.helper name "h.ts").line] := by
  intro script names
  have hnames : exportNames script = names := by decide +kernel
  obtain ⟨hnodup, hplain⟩ := exportNames_nodup_and_plain script
  refine ⟨hnames, hnames ▸ hnodup, fun name hname => ?_⟩
  obtain ⟨-, hpart, -, -, hmarks, hline⟩ := hplain name (hnames.symm ▸ hname)
  exact ⟨hpart, hmarks, (hline "h.ts").2 []⟩

end ComponentLoader
