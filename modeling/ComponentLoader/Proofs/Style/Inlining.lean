import ComponentLoader.Proofs.Style.Dependence
import ComponentLoader.Proofs.Style.ImportLine
import ComponentLoader.Proofs.Text.Line
set_option autoImplicit false

/-!
# Inlined stylesheets (SPEC §4.3)

What is inlined has no import left, at any depth.  Two things could bring one back: a line of a file
that goes on in a line of another file, and an import that is not looked at.  Every piece that is
put in front of something ends its last line (`EndsLine`), so lines never merge, and every line that
is kept was looked at.  A text without imports is inlined to itself, and nothing is read for it.
-/

namespace ComponentLoader

namespace Import

/-! ## Texts without imports -/

/-- A text that ends its last line, if it has one. -/
def EndsLine (text : Text) : Prop :=
  ∀ c ∈ text.getLast?, c = '\n'

/-- A text none of whose lines is an import of local files. -/
def HasNoImport (text : Text) : Prop :=
  ∀ line ∈ Text.splitAfterNewline text, ∀ targets, ¬IsImport targets line

theorem targets?_eq_none_iff {line : Text} :
    targets? line = none ↔ ∀ targets, ¬IsImport targets line := by
  simp only [← targets?_eq_some_iff, Option.eq_none_iff_forall_ne_some, ne_eq]

theorem hasNoImport_iff {text : Text} :
    HasNoImport text ↔ ∀ line ∈ Text.splitAfterNewline text, targets? line = none := by
  simp only [HasNoImport, targets?_eq_none_iff]

/-- The end of a line does not make it an import. -/
theorem targets?_append_newline (line : Text) : targets? (line ++ ['\n']) = targets? line := by
  unfold targets?
  rw [show line ++ ['\n'] = [] ++ (line ++ ['\n']) from rfl, Text.trim_blanks rfl (by decide)]

theorem hasNoImport_of_not_mem {text : Text} (h : '\n' ∉ text) :
    HasNoImport text ↔ targets? text = none := by
  rw [hasNoImport_iff]
  by_cases hnil : text = []
  · subst hnil
    exact iff_of_true (fun line hmem => (nomatch hmem)) rfl
  · simp [Text.splitAfterNewline_of_not_mem h hnil]

theorem hasNoImport_append_cons {line : Text} (h : '\n' ∉ line) (rest : Text) :
    HasNoImport (line ++ '\n' :: rest) ↔ targets? line = none ∧ HasNoImport rest := by
  rw [hasNoImport_iff, hasNoImport_iff, Text.splitAfterNewline_append_cons h, List.forall_mem_cons,
    targets?_append_newline]

theorem EndsLine.append {a b : Text} (ha : EndsLine a) (hb : EndsLine b) : EndsLine (a ++ b) := by
  intro c hc
  rw [List.getLast?_append] at hc
  cases hlast : b.getLast? with
  | none => exact ha c (by simpa [hlast] using hc)
  | some d => exact hb c (by simpa [hlast] using hc)

theorem HasNoImport.append {a b : Text} (ha : HasNoImport a) (hend : EndsLine a)
    (hb : HasNoImport b) : HasNoImport (a ++ b) := by
  intro line hmem
  rw [Text.splitAfterNewline_append hend] at hmem
  rcases List.mem_append.mp hmem with hmem | hmem
  · exact ha line hmem
  · exact hb line hmem

theorem endsLine_endLine (css : Text) : EndsLine (endLine css) := by
  unfold endLine
  split
  · rename_i hlast
    intro c hc
    rw [hlast] at hc
    exact (Option.mem_some_iff.mp hc).symm
  · intro c hc
    rw [List.getLast?_concat] at hc
    exact (Option.mem_some_iff.mp hc).symm

theorem HasNoImport.append_newline {css : Text} (h : HasNoImport css) :
    HasNoImport (css ++ ['\n']) := by
  induction css using Text.line_induction with
  | last text hnone =>
      exact (hasNoImport_append_cons hnone []).mpr
        ⟨(hasNoImport_of_not_mem hnone).mp h, fun line hmem => (nomatch hmem)⟩
  | cons line rest hline ih =>
      obtain ⟨hfirst, hrest⟩ := (hasNoImport_append_cons hline rest).mp h
      rw [List.append_assoc]
      exact (hasNoImport_append_cons hline _).mpr ⟨hfirst, ih hrest⟩

theorem HasNoImport.endLine {css : Text} (h : HasNoImport css) : HasNoImport (endLine css) := by
  unfold Import.endLine
  split
  · exact h
  · exact h.append_newline

/-! ## What is inlined -/

variable {files : FileTree} {inline : Chain → FilePath → Text → Except StyleError Inlined}
  {chain : Chain} {importer : FilePath}

theorem css_append (a b : Inlined) : (a ++ b).css = a.css ++ b.css := rfl

/-- A target is inlined if it is found, is not being read and can be read, to what its text is
inlined to, as a piece of its own. -/
theorem inlineTarget_eq_ok_iff {target : Text} {out : Inlined} :
    inlineTarget files inline chain importer target = .ok out ↔
      ∃ path text inner, find? files importer target = some path ∧ path.segments ∉ chain ∧
        files.readText path = .ok text ∧ inline (path.segments :: chain) path text = .ok inner ∧
        ⟨endLine inner.css, path :: inner.loaded⟩ = out := by
  unfold inlineTarget
  cases hfind : find? files importer target with
  | none => simp
  | some path =>
      by_cases hchain : path.segments ∈ chain
      · simp [hchain]
      · cases htext : files.readText path with
        | error fault => simp [hchain, htext]
        | ok text =>
            cases hinner : inline (path.segments :: chain) path text with
            | error e => simp [hchain, htext, hinner, bind, Except.bind]
            | ok inner => simp [hchain, htext, hinner, bind, Except.bind, pure, Except.pure]

/-- Targets one after the other are inlined to whole lines without imports. -/
theorem hasNoImport_of_inlineTargets
    (hinline : ∀ chain path text out, inline chain path text = .ok out → HasNoImport out.css)
    {targets : List Text} {out : Inlined}
    (h : inlineAll (inlineTarget files inline chain importer) targets = .ok out) :
    HasNoImport out.css ∧ EndsLine out.css := by
  induction targets generalizing out with
  | nil =>
      cases h
      exact ⟨fun line hmem => (nomatch hmem), fun c hc => (nomatch hc)⟩
  | cons target rest ih =>
      obtain ⟨first, others, hfirst, hothers, rfl⟩ := inlineAll_cons_eq_ok.mp h
      obtain ⟨path, text, inner, -, -, -, hinner, rfl⟩ := inlineTarget_eq_ok_iff.mp hfirst
      obtain ⟨hrest, hrestEnd⟩ := ih hothers
      have hpiece := (hinline _ path text inner hinner).endLine
      have hpieceEnd := endsLine_endLine inner.css
      rw [css_append]
      exact ⟨hpiece.append hpieceEnd hrest, hpieceEnd.append hrestEnd⟩

/-- A line is kept if it is no import, and else it is inlined to whole lines without imports. -/
theorem eq_or_hasNoImport_of_inlineLine
    (hinline : ∀ chain path text out, inline chain path text = .ok out → HasNoImport out.css)
    {line : Text} {out : Inlined} (h : inlineLine files inline chain importer line = .ok out) :
    (targets? line = none ∧ out.css = line) ∨ (HasNoImport out.css ∧ EndsLine out.css) := by
  unfold inlineLine at h
  cases htargets : targets? line with
  | none =>
      rw [htargets] at h
      cases h
      exact Or.inl ⟨rfl, rfl⟩
  | some targets =>
      rw [htargets] at h
      exact Or.inr (hasNoImport_of_inlineTargets hinline h)

/-- What the lines of a text are inlined to has no imports.  The induction is on the lines: all but
the last are whole, so what stands for them is too. -/
theorem hasNoImport_of_inlineLines
    (hinline : ∀ chain path text out, inline chain path text = .ok out → HasNoImport out.css)
    {source : Text} {out : Inlined}
    (h : inlineAll (inlineLine files inline chain importer) (Text.splitAfterNewline source) =
      .ok out) :
    HasNoImport out.css := by
  induction source using Text.line_induction generalizing out with
  | last text hnone =>
      by_cases hnil : text = []
      · subst hnil
        cases h
        exact fun line hmem => (nomatch hmem)
      · rw [Text.splitAfterNewline_of_not_mem hnone hnil] at h
        obtain ⟨first, others, hfirst, hothers, rfl⟩ := inlineAll_cons_eq_ok.mp h
        cases hothers
        rw [css_append, List.append_nil]
        rcases eq_or_hasNoImport_of_inlineLine hinline hfirst with ⟨hplain, hcss⟩ | ⟨hfirst, -⟩
        · rw [hcss]
          exact (hasNoImport_of_not_mem hnone).mpr hplain
        · exact hfirst
  | cons line rest hline ih =>
      rw [Text.splitAfterNewline_append_cons hline] at h
      obtain ⟨first, others, hfirst, hothers, rfl⟩ := inlineAll_cons_eq_ok.mp h
      have hothers := ih hothers
      rw [css_append]
      rcases eq_or_hasNoImport_of_inlineLine hinline hfirst with ⟨hplain, hcss⟩ | ⟨hfirst, hend⟩
      · rw [hcss, List.append_assoc]
        rw [targets?_append_newline] at hplain
        exact (hasNoImport_append_cons hline _).mpr ⟨hplain, hothers⟩
      · exact hfirst.append hend hothers

/-- Whatever is inlined has no imports.  The induction is on the levels of imports. -/
theorem hasNoImport_of_inlineWithin {n : Nat} {source : Text} {out : Inlined}
    (h : inlineWithin files n chain importer source = .ok out) : HasNoImport out.css := by
  induction n generalizing chain importer source out with
  | zero => cases h
  | succ n ih => exact hasNoImport_of_inlineLines (fun _ _ _ _ => ih) h

/-! ## Texts that stay as they are -/

theorem inlineAll_of_targets?_eq_none {lines : List Text}
    (h : ∀ line ∈ lines, targets? line = none) :
    inlineAll (inlineLine files inline chain importer) lines = .ok ⟨lines.flatten, []⟩ := by
  induction lines with
  | nil => rfl
  | cons line rest ih =>
      obtain ⟨hline, hrest⟩ := List.forall_mem_cons.mp h
      have hfirst : inlineLine files inline chain importer line = .ok ⟨line, []⟩ := by
        rw [inlineLine, hline]
      exact inlineAll_cons_eq_ok.mpr ⟨_, _, hfirst, ih hrest, rfl⟩

theorem chainLimit_pos : 0 < chainLimit :=
  Nat.pow_pos (Nat.pow_pos (by decide))

/-- A text without imports is inlined to itself, at every level. -/
theorem inlineWithin_of_hasNoImport {n : Nat} (hn : 0 < n) {text : Text} (h : HasNoImport text)
    (files : FileTree) (chain : Chain) (file : FilePath) :
    inlineWithin files n chain file text = .ok ⟨text, []⟩ := by
  obtain ⟨m, rfl⟩ := Nat.exists_eq_succ_of_ne_zero hn.ne'
  have hlines : inlineAll (inlineLine files (inlineWithin files m) chain file)
      (Text.splitAfterNewline text) = _ :=
    inlineAll_of_targets?_eq_none (hasNoImport_iff.mp h)
  rw [Text.flatten_splitAfterNewline] at hlines
  exact hlines

theorem inline_of_hasNoImport {source : Text} (h : HasNoImport source) (files : FileTree)
    (url : FilePath) : Import.inline files url source = .ok ⟨source, []⟩ :=
  inlineWithin_of_hasNoImport chainLimit_pos h files [url.segments] url

end Import

/-- What was inlined has no import of local files in any line, and it is inlined to itself, under
every name and among any files. -/
theorem inlineImports_settled {files : FileTree} {source : Text} {url : FilePath} {wantsMap : Bool}
    {out : Preprocessed} (h : inlineImports files source url wantsMap = .ok out) :
    (∀ line ∈ Text.splitAfterNewline out.css, ∀ targets, ¬Import.IsImport targets line) ∧
      ∀ (other : FileTree) (otherUrl : FilePath) (otherWantsMap : Bool),
        inlineImports other out.css otherUrl otherWantsMap =
          .ok { css := out.css, loaded := [] } := by
  obtain ⟨inlined, hinlined, rfl⟩ := inlineImports_eq_ok_iff.mp h
  have hnone := Import.hasNoImport_of_inlineWithin hinlined
  refine ⟨hnone, fun other otherUrl otherWantsMap => ?_⟩
  exact inlineImports_eq_ok_iff.mpr ⟨_, Import.inline_of_hasNoImport hnone other otherUrl, rfl⟩

/-- Neither of the two files ends its last line; the imports are settled after one run. -/
theorem inlineImports_settled_diamondTree :
    let out : Preprocessed :=
      { css := "u \x7b\x7d\nu \x7b\x7d\n", loaded := [⟨"b.scss"⟩, ⟨"c.scss"⟩, ⟨"c.scss"⟩] }
    inlineImports diamondTree "@import 'b', 'c';\n" ⟨"a.scss"⟩ true = .ok out ∧
      (∀ line ∈ Text.splitAfterNewline out.css, ∀ targets, ¬Import.IsImport targets line) ∧
      ∀ (other : FileTree) (otherUrl : FilePath) (otherWantsMap : Bool),
        inlineImports other out.css otherUrl otherWantsMap =
          .ok { css := out.css, loaded := [] } := by
  intro out
  have hout : inlineImports diamondTree "@import 'b', 'c';\n" ⟨"a.scss"⟩ true = .ok out := by rfl
  exact ⟨hout, inlineImports_settled hout⟩

end ComponentLoader
