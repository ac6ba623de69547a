import ComponentLoader.Proofs.Style.Inlining
import ComponentLoader.Proofs.Style.Lexeme
set_option autoImplicit false

/-!
# Lines in comments (SPEC §4.3)

Imports are looked for line by line, and nothing of a line is known but its own characters.  So it
makes no difference to a line that it stands in a comment.  It is kept as it is exactly if it does
not read as an import; otherwise files are read in its place or the stylesheet is refused
(`inline_commentedLine`).

Of a comment, only lines between its first and its last one can read as an import, since the
delimiters are no part of one.
-/

namespace ComponentLoader

/-! ## Comments -/

namespace Lexeme

/-- The rest of a comment ends with a slash. -/
theorem getLast?_of_commentRest? {text body after : Text}
    (h : commentRest? text = some (body, after)) :
    body.getLast? = some '/' := by
  fun_induction commentRest? text generalizing body with
  | case1 => cases h
  | case2 => cases h
  | case3 a b rest hend =>
      cases h
      rw [hend.2]
      rfl
  | case4 a b rest hend ih =>
      simp only [Option.map_eq_some_iff, Prod.exists, Prod.mk.injEq] at h
      obtain ⟨inner, tail, hinner, rfl, rfl⟩ := h
      rw [List.getLast?_cons, ih hinner]
      rfl

theorem slashes_of_first {c : Char} {rest text : Text} (h : (first c rest).1 = comment text) :
    text.head? = some '/' ∧ text.getLast? = some '/' := by
  unfold first at h
  split at h
  · split at h <;> cases h
  · split at h
    · split at h
      · rename_i body after hbody
        cases h
        refine ⟨rfl, ?_⟩
        rw [List.getLast?_cons, List.getLast?_cons, getLast?_of_commentRest? hbody]
        rfl
      · cases h
    · cases h

/-- A comment of a stylesheet begins and ends with a slash. -/
theorem slashes_of_mem_ofText {css text : Text} (h : comment text ∈ ofText css) :
    text.head? = some '/' ∧ text.getLast? = some '/' := by
  fun_induction ofText css with
  | case1 => cases h
  | case2 c rest ih =>
      rcases List.mem_cons.mp h with hfirst | hrest
      · exact slashes_of_first hfirst.symm
      · exact ih hrest

end Lexeme

namespace Import

/-- A line of a stylesheet that lies wholly in one of its comments, with all that is around it. -/
structure CommentedLine (source : Text) where
  before : Text
  line : Text
  /-- the end of the line; none for a last line that does not end -/
  ending : Text
  after : Text
  source_eq : source = before ++ (line ++ (ending ++ after))
  before_ends : EndsLine before
  one_line : '\n' ∉ line
  ending_eq : ending = ['\n'] ∨ ending = [] ∧ after = []
  /-- the lexemes before the comment -/
  front : List Lexeme
  /-- the lexemes behind the comment -/
  back : List Lexeme
  /-- what of the comment is on lines above -/
  opening : Text
  /-- what of the comment is behind the line -/
  closing : Text
  lexemes_eq : Lexeme.ofText source = front ++ .comment (opening ++ (line ++ closing)) :: back
  place_eq : before = Lexeme.textOf front ++ opening

/-- A blank text has no slash. -/
theorem Blank.slash_not_mem {text : Text} (h : Blank text) : '/' ∉ text := by
  intro hmem
  exact absurd (List.all_eq_true.mp h _ hmem) (by decide)

/-- A line that reads as an import neither begins nor ends with a slash. -/
theorem IsImport.slashes {targets : List Text} {line : Text} (h : IsImport targets line) :
    line ≠ [] ∧ line.head? ≠ some '/' ∧ line.getLast? ≠ some '/' := by
  obtain ⟨before, first, list, last, after, hbefore, -, -, hafter, -, rfl⟩ := h
  refine ⟨by simp, ?_, ?_⟩
  · cases before with
    | nil => exact fun hhead => absurd (Option.some.inj hhead) (by decide)
    | cons c rest =>
        intro hhead
        obtain rfl : c = '/' := Option.some.inj hhead
        exact hbefore.slash_not_mem List.mem_cons_self
  · intro hlast
    simp only [List.getLast?_append, List.getLast?_cons] at hlast
    cases htail : after.getLast? with
    | none => simp [htail] at hlast
    | some c =>
        obtain rfl : c = '/' := by simpa [htail] using hlast
        exact hafter.slash_not_mem (List.mem_of_getLast? htail)

/-- Of a comment, neither the first nor the last line reads as an import. -/
theorem CommentedLine.between_of_isImport {source : Text} (l : CommentedLine source)
    {targets : List Text} (h : IsImport targets l.line) : l.opening ≠ [] ∧ l.closing ≠ [] := by
  have hmem : Lexeme.comment (l.opening ++ (l.line ++ l.closing)) ∈ Lexeme.ofText source := by
    rw [l.lexemes_eq]
    simp
  -- with nothing of the comment above it or behind it, the line has a slash of a delimiter at that
  -- end
  obtain ⟨hfirst, hlast⟩ := Lexeme.slashes_of_mem_ofText hmem
  obtain ⟨hne, hhead, htail⟩ := h.slashes
  constructor
  · intro hopening
    obtain ⟨c, rest, hline⟩ := List.exists_cons_of_ne_nil hne
    rw [hopening, hline] at hfirst
    rw [hline] at hhead
    exact hhead hfirst
  · intro hclosing
    rw [hclosing, List.append_nil, List.getLast?_append, List.getLast?_eq_some_getLast hne] at hlast
    rw [List.getLast?_eq_some_getLast hne] at htail
    exact htail hlast

/-! ## Lines one after the other -/

theorem append_assoc (a b c : Inlined) : a ++ b ++ c = a ++ (b ++ c) := by
  show Inlined.mk (a.css ++ b.css ++ c.css) (a.loaded ++ b.loaded ++ c.loaded) = _
  rw [List.append_assoc, List.append_assoc]
  rfl

/-- What two lists are inlined to, one after the other. -/
theorem inlineAll_append {α : Type} (inline : α → Except StyleError Inlined) (items more : List α) :
    inlineAll inline (items ++ more) = do
      let first ← inlineAll inline items
      let others ← inlineAll inline more
      return first ++ others := by
  induction items with
  | nil => cases hmore : inlineAll inline more <;> simp [inlineAll, hmore] <;> rfl
  | cons item rest ih =>
      rw [List.cons_append, inlineAll, inlineAll, ih]
      cases inline item with
      | error e => rfl
      | ok first =>
          cases inlineAll inline rest with
          | error e => rfl
          | ok others =>
              cases inlineAll inline more with
              | error e => rfl
              | ok last => exact congrArg Except.ok (append_assoc first others last).symm

section

variable {line ending after : Text} (one_line : '\n' ∉ line)
  (ending_eq : ending = ['\n'] ∨ ending = [] ∧ after = [])
include one_line ending_eq

theorem hasNoImport_line_iff :
    HasNoImport (line ++ ending) ↔ ∀ targets, ¬IsImport targets line := by
  rw [← targets?_eq_none_iff]
  obtain rfl | ⟨rfl, -⟩ := ending_eq
  · rw [hasNoImport_append_cons one_line]
    exact and_iff_left fun line hmem => nomatch hmem
  · rw [List.append_nil, hasNoImport_of_not_mem one_line]

theorem splitAfterNewline_line (hne : line ≠ []) :
    Text.splitAfterNewline (line ++ ending) = [line ++ ending] := by
  obtain rfl | ⟨rfl, -⟩ := ending_eq
  · exact Text.splitAfterNewline_append_cons one_line []
  · rw [List.append_nil]
    exact Text.splitAfterNewline_of_not_mem one_line hne

end

theorem IsImport.with_ending {targets : List Text} {line ending after : Text}
    (h : IsImport targets line) (ending_eq : ending = ['\n'] ∨ ending = [] ∧ after = []) :
    IsImport targets (line ++ ending) := by
  obtain rfl | ⟨rfl, -⟩ := ending_eq
  · rw [← targets?_eq_some_iff, targets?_append_newline]
    exact targets?_eq_some_iff.mpr h
  · rw [List.append_nil]
    exact h

theorem splitAfterNewline_around {before line ending after : Text} (before_ends : EndsLine before)
    (ending_eq : ending = ['\n'] ∨ ending = [] ∧ after = []) :
    Text.splitAfterNewline (before ++ (line ++ (ending ++ after))) =
      Text.splitAfterNewline before ++
        (Text.splitAfterNewline (line ++ ending) ++ Text.splitAfterNewline after) := by
  rw [Text.splitAfterNewline_append before_ends]
  obtain rfl | ⟨rfl, rfl⟩ := ending_eq
  · rw [← List.append_assoc line, Text.splitAfterNewline_append]
    simp
  · simp [Text.splitAfterNewline]

/-- A text is inlined to what is above one of its lines, the line, and what is
below, each on its own. -/
theorem inlineWithin_line {n : Nat} (hn : 0 < n) {before line ending after : Text}
    (before_ends : EndsLine before) (ending_eq : ending = ['\n'] ∨ ending = [] ∧ after = [])
    (files : FileTree) (chain : Chain) (file : FilePath) :
    inlineWithin files n chain file (before ++ (line ++ (ending ++ after))) = do
      let first ← inlineWithin files n chain file before
      let own ← inlineWithin files n chain file (line ++ ending)
      let last ← inlineWithin files n chain file after
      return first ++ (own ++ last) := by
  obtain ⟨m, rfl⟩ := Nat.exists_eq_succ_of_ne_zero hn.ne'
  simp only [inlineWithin, splitAfterNewline_around before_ends ending_eq, inlineAll_append,
    bind_assoc, pure_bind]

variable {files : FileTree} {inline : Chain → FilePath → Text → Except StyleError Inlined}
  {chain : Chain} {importer : FilePath}

/-- A line that reads as an import is not inlined without a file being read. -/
theorem loaded_ne_nil_of_isImport {targets : List Text} {line : Text} (h : IsImport targets line)
    {own : Inlined} (hown : inlineLine files inline chain importer line = .ok own) :
    own.loaded ≠ [] := by
  unfold inlineLine at hown
  rw [targets?_eq_some_iff.mpr h] at hown
  obtain ⟨before, first, list, last, after, -, -, -, -, hlist, -⟩ := h
  obtain ⟨target, others, rfl⟩ : ∃ target others, targets = target :: others := by
    cases hlist with
    | one => exact ⟨_, _, rfl⟩
    | cons => exact ⟨_, _, rfl⟩
  obtain ⟨read, more, hread, -, rfl⟩ := inlineAll_cons_eq_ok.mp hown
  obtain ⟨path, text, inner, -, -, -, -, rfl⟩ := inlineTarget_eq_ok_iff.mp hread
  exact List.cons_ne_nil _ _

/-- Inlining looks at a line in a comment as at any other one: a stylesheet is inlined to what is
above the line, the line, and what is below, each on its own.  The line stays as it is exactly if it
does not read as an import.  If it does, it is between the first and the last line of the comment,
and files are read in its place or the stylesheet is refused. -/
theorem inline_commentedLine {source : Text} (l : CommentedLine source) {n : Nat} (hn : 0 < n)
    (files : FileTree) (chain : Chain) (file : FilePath) :
    let part := inlineWithin files n chain file
    (part source = do
      let first ← part l.before
      let own ← part (l.line ++ l.ending)
      let last ← part l.after
      return first ++ (own ++ last)) ∧
    (part (l.line ++ l.ending) = .ok ⟨l.line ++ l.ending, []⟩ ↔
      ∀ targets, ¬IsImport targets l.line) ∧
    ∀ targets, IsImport targets l.line → l.opening ≠ [] ∧ l.closing ≠ [] ∧
      ∀ own, part (l.line ++ l.ending) = .ok own → own.loaded ≠ [] := by
  intro part
  have hloads {targets : List Text} (h : IsImport targets l.line) (own : Inlined)
      (hown : part (l.line ++ l.ending) = .ok own) : own.loaded ≠ [] := by
    obtain ⟨m, rfl⟩ := Nat.exists_eq_succ_of_ne_zero hn.ne'
    have hline : inlineAll (inlineLine files (inlineWithin files m) chain file)
        (Text.splitAfterNewline (l.line ++ l.ending)) = .ok own := hown
    rw [splitAfterNewline_line l.one_line l.ending_eq h.slashes.1] at hline
    obtain ⟨read, others, hread, -, rfl⟩ := inlineAll_cons_eq_ok.mp hline
    have hne := loaded_ne_nil_of_isImport (h.with_ending l.ending_eq) hread
    exact fun hnil => hne (List.append_eq_nil_iff.mp hnil).1
  refine ⟨?_, ⟨?_, ?_⟩, ?_⟩
  · conv => lhs; rw [l.source_eq]
    exact inlineWithin_line hn l.before_ends l.ending_eq files chain file
  · intro hkept targets h
    exact hloads h _ hkept rfl
  · intro hnone
    exact inlineWithin_of_hasNoImport hn ((hasNoImport_line_iff l.one_line l.ending_eq).mpr hnone)
      files
      chain file
  · intro targets h
    obtain ⟨hopening, hclosing⟩ := l.between_of_isImport h
    exact ⟨hopening, hclosing, hloads h⟩

/-! ## Lines that are commented out -/

/-- An import in a comment, with the delimiters on lines of their own. -/
def commentedImport : CommentedLine "/*\n@import \"a\";\n*/\n" where
  before := "/*\n"
  line := "@import \"a\";"
  ending := "\n"
  after := "*/\n"
  source_eq := by decide +kernel
  before_ends := fun c hc => (Option.some.inj (show some '\n' = some c from hc)).symm
  one_line := by decide +kernel
  ending_eq := Or.inl rfl
  front := []
  back := [.plain '\n']
  opening := "/*\n"
  closing := "\n*/"
  lexemes_eq := by decide +kernel
  place_eq := by decide +kernel

/-- Whatever the files are, the line is not inlined without one of them being read. -/
theorem inline_commentedLine_import :
    0 < chainLimit ∧ IsImport ["a"] commentedImport.line ∧
      ∀ (files : FileTree) (url : FilePath) (own : Inlined),
        Import.inline files url (commentedImport.line ++ "\n") = .ok own → own.loaded ≠ [] := by
  have himport : IsImport ["a"] commentedImport.line := targets?_eq_some_iff.mp (by decide +kernel)
  refine ⟨chainLimit_pos, himport, fun files url => ?_⟩
  obtain ⟨-, -, hread⟩ :=
    inline_commentedLine commentedImport chainLimit_pos files [url.segments] url
  exact (hread _ himport).2.2

/-- A file with one rule. -/
def ruleTree : FileTree where
  entries :=
    [([], ⟨1, 0, .directory⟩), (["a.scss".toList], ⟨2, 0, .file (Text.utf8 ".a\x7b\x7d\n")⟩)]
  workingNames := []
  nextInode := 3
  clock := 1

end Import

/-- A file is read in the place of an import that is commented out, and if the file is missing the
stylesheet is refused. -/
theorem inlineImports_commentedImport :
    let source : Text := "/*\n@import \"a\";\n*/\n"
    let missing := Import.ruleTree.edit (.remove ⟨"a.scss"⟩)
    (∃ l : Import.CommentedLine source, l.line = "@import \"a\";".toList) ∧
      inlineImports Import.ruleTree source ⟨"main.scss"⟩ false =
        .ok { css := "/*\n.a\x7b\x7d\n*/\n", loaded := [⟨"a.scss"⟩] } ∧
      inlineImports missing source ⟨"main.scss"⟩ false =
        .error (.preprocess ⟨"main.scss"⟩ (.unresolvedImport "a")) :=
  ⟨⟨Import.commentedImport, rfl⟩, by rfl, by rfl⟩

end ComponentLoader
