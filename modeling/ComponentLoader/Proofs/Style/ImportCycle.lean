import ComponentLoader.Proofs.FileTree.Bound
import ComponentLoader.Proofs.Style.Inlining
import Mathlib.Logic.Relation
set_option autoImplicit false

/-!
# Import cycles (SPEC §4.3)

Files import files, and inlining follows the imports depth first.  What it carries along is the
chain of the files that are being read.  Two facts about chains give everything here:

* no path is in a chain twice, and there are only so many paths, so the nested calls come to an end
  before the levels run out (`IsReading.acc`, `IsReading.inlineWithin_eq`);
* every file of a chain leads through imports to what is imported next (`IsReading.ancestor`), so a
  path that comes up again is a cycle.

In the other direction, a file that was inlined has all that it imports, at any depth, outside of
its own chain (`InlinedBeyond`), so nothing that was inlined has a cycle.
-/

namespace ComponentLoader

namespace Import

open Relation (TransGen ReflTransGen)

/-! ## Who imports whom -/

/-- A target that some line of a text imports. -/
def Names (text target : Text) : Prop :=
  ∃ line ∈ Text.splitAfterNewline text, ∃ targets, IsImport targets line ∧ target ∈ targets

/-- A file that a text imports, if it is the text of the file `importer`. -/
def Imports (files : FileTree) (importer : FilePath) (text : Text) (path : FilePath) : Prop :=
  ∃ target, Names text target ∧ find? files importer target = some path

/-- The file at one path imports the file at another. -/
def FileImports (files : FileTree) (p q : FilePath) : Prop :=
  ∃ text, files.readText p = .ok text ∧ Imports files p text q

/-- A file that a stylesheet imports, directly or through others. -/
def Reaches (files : FileTree) (url : FilePath) (source : Text) (path : FilePath) : Prop :=
  ∃ first, Imports files url source first ∧ ReflTransGen (FileImports files) first path

/-- Some file that a stylesheet imports is the stylesheet itself, or imports itself. -/
def HasCycle (files : FileTree) (url : FilePath) (source : Text) : Prop :=
  ∃ path, Reaches files url source path ∧
    (path.Same url ∨ ∃ again, TransGen (FileImports files) path again ∧ again.Same path)

/-- Every target that a text imports is a file with a text. -/
def Resolves (files : FileTree) (importer : FilePath) (text : Text) : Prop :=
  ∀ target, Names text target →
    ∃ path, find? files importer target = some path ∧ ∃ inner, files.readText path = .ok inner

/-- Every target that a stylesheet imports, directly or through others, is a file with a text. -/
def ResolvesThroughout (files : FileTree) (url : FilePath) (source : Text) : Prop :=
  Resolves files url source ∧
    ∀ path, Reaches files url source path → ∀ text, files.readText path = .ok text →
      Resolves files path text

theorem names_iff {text target : Text} :
    Names text target ↔
      target ∈ (Text.splitAfterNewline text).flatMap fun line => (targets? line).getD [] := by
  simp only [Names, ← targets?_eq_some_iff, List.mem_flatMap]
  refine exists_congr fun line => and_congr_right fun _ => ?_
  cases targets? line <;> simp

variable {files : FileTree} {url : FilePath} {source : Text}

theorem Imports.isFile {importer : FilePath} {text : Text} {path : FilePath}
    (h : Imports files importer text path) : files.isFile path = true := by
  obtain ⟨target, -, hfind⟩ := h
  exact List.find?_some hfind

theorem Reaches.isFile {path : FilePath} (h : Reaches files url source path) :
    files.isFile path = true := by
  obtain ⟨first, hfirst, hpath⟩ := h
  cases hpath with
  | refl => exact hfirst.isFile
  | tail _ hlast =>
      obtain ⟨text, -, himports⟩ := hlast
      exact himports.isFile

theorem Reaches.step {p q : FilePath} (h : Reaches files url source p)
    (hpq : FileImports files p q) :
    Reaches files url source q := by
  obtain ⟨first, hfirst, hpath⟩ := h
  exact ⟨first, hfirst, hpath.tail hpq⟩

/-! ## Nested calls -/

/-- What a call inlines: a text, the file it is from, and the files that are being read. -/
structure Reading where
  chain : Chain
  file : FilePath
  text : Text

/-- The calls that a call makes. -/
inductive Calls (files : FileTree) : Reading → Reading → Prop where
  | intro {outer : Reading} {path : FilePath} {text : Text}
      (imports : Imports files outer.file outer.text path) (fresh : path.segments ∉ outer.chain)
      (read : files.readText path = .ok text) :
      Calls files ⟨path.segments :: outer.chain, path, text⟩ outer

/-- A call that is made for a stylesheet: no file is in the chain twice, and each of them is the
stylesheet or leads to all that is imported next. -/
structure IsReading (files : FileTree) (url : FilePath) (source : Text) (r : Reading) : Prop where
  nodup : r.chain.Nodup
  ancestor : ∀ segments ∈ r.chain, segments = url.segments ∨
    ∃ p, Reaches files url source p ∧ p.segments = segments ∧
      ∀ q, Imports files r.file r.text q → TransGen (FileImports files) p q
  reaches : ∀ q, Imports files r.file r.text q → Reaches files url source q

theorem IsReading.start (files : FileTree) (url : FilePath) (source : Text) :
    IsReading files url source ⟨[url.segments], url, source⟩ where
  nodup := List.nodup_singleton _
  ancestor _ hmem := Or.inl (List.mem_singleton.mp hmem)
  reaches q hq := ⟨q, hq, .refl⟩

theorem IsReading.of_calls {inner outer : Reading} (h : IsReading files url source outer)
    (hcall : Calls files inner outer) : IsReading files url source inner := by
  cases hcall with
  | @intro _ path text imports fresh read =>
      have hpath := h.reaches path imports
      have hstep : ∀ q, Imports files path text q → FileImports files path q :=
        fun q hq => ⟨text, read, hq⟩
      refine ⟨List.nodup_cons.mpr ⟨fresh, h.nodup⟩, fun segments hmem => ?_,
        fun q hq => hpath.step (hstep q hq)⟩
      rcases List.mem_cons.mp hmem with rfl | hmem
      · exact Or.inr ⟨path, hpath, rfl, fun q hq => .single (hstep q hq)⟩
      · refine (h.ancestor segments hmem).imp_right ?_
        rintro ⟨p, hp, hsegments, hleads⟩
        exact ⟨p, hp, hsegments, fun q hq => (hleads path imports).tail (hstep q hq)⟩

/-! ## No chain is longer than there are paths -/

theorem chainLimit_eq : chainLimit = Text.codeBase ^ FileTree.pathLimit := by
  rw [show FileTree.pathLimit = 64 * 64 from rfl, Nat.pow_mul]
  rfl

theorem IsReading.length_chain_le {r : Reading} (h : IsReading files url source r) :
    r.chain.length ≤ chainLimit := by
  have hfound : (r.chain.filter (· ≠ url.segments)).length ≤
      Text.codeBase ^ (FileTree.pathLimit - 1) := by
    refine FileTree.length_le_of_isFile files FilePath.segments (h.nodup.filter _)
      fun segments hmem => ?_
    obtain ⟨hmem, hne⟩ := List.mem_filter.mp hmem
    rcases h.ancestor segments hmem with heq | ⟨p, hp, hsegments, -⟩
    · exact absurd heq (of_decide_eq_true hne)
    · exact ⟨p, hp.isFile, hsegments⟩
  have hchain : r.chain ⊆ url.segments :: r.chain.filter (· ≠ url.segments) := by
    intro segments hmem
    by_cases heq : segments = url.segments
    · exact List.mem_cons.mpr (Or.inl heq)
    · exact List.mem_cons_of_mem _ (List.mem_filter.mpr ⟨hmem, decide_eq_true heq⟩)
  have hlength := (List.subperm_of_subset h.nodup hchain).length_le
  have hlimit : Text.codeBase ^ (FileTree.pathLimit - 1) < chainLimit := by
    rw [chainLimit_eq]
    exact Nat.pow_lt_pow_right (by decide) (by decide)
  rw [List.length_cons] at hlength
  omega

/-- Nested calls come to an end.  The induction is on the room that is left in the chain. -/
theorem IsReading.acc {r : Reading} (h : IsReading files url source r) : Acc (Calls files) r := by
  induction hroom : chainLimit - r.chain.length using Nat.strongRecOn generalizing r with
  | ind room ih =>
      refine Acc.intro r fun inner hcall => ?_
      have hinner := h.of_calls hcall
      have hlength : inner.chain.length = r.chain.length + 1 := by
        cases hcall
        rfl
      have hle := hinner.length_chain_le
      exact ih _ (by omega) hinner rfl

/-! ## The levels do not run out -/

variable {inline inline' : Chain → FilePath → Text → Except StyleError Inlined}

theorem inlineAll_congr {α : Type} {inline inline' : α → Except StyleError Inlined} {xs : List α}
    (h : ∀ x ∈ xs, inline x = inline' x) : inlineAll inline xs = inlineAll inline' xs := by
  induction xs with
  | nil => rfl
  | cons x rest ih =>
      obtain ⟨hx, hrest⟩ := List.forall_mem_cons.mp h
      rw [inlineAll, inlineAll, hx, ih hrest]

/-- The lines of a text ask only for the calls that it makes. -/
theorem inlineLines_congr {r : Reading}
    (h : ∀ s, Calls files s r → inline s.chain s.file s.text = inline' s.chain s.file s.text) :
    inlineAll (inlineLine files inline r.chain r.file) (Text.splitAfterNewline r.text) =
      inlineAll (inlineLine files inline' r.chain r.file) (Text.splitAfterNewline r.text) := by
  refine inlineAll_congr fun line hline => ?_
  unfold inlineLine
  cases htargets : targets? line with
  | none => rfl
  | some targets =>
      refine inlineAll_congr fun target htarget => ?_
      unfold inlineTarget
      cases hfind : find? files r.file target with
      | none => rfl
      | some path =>
          dsimp only
          split
          · rfl
          · rename_i hfresh
            cases hread : files.readText path with
            | error fault => rfl
            | ok text =>
                have himports : Imports files r.file r.text path :=
                  ⟨target, ⟨line, hline, targets, targets?_eq_some_iff.mp htargets, htarget⟩, hfind⟩
                dsimp only
                rw [h _ (.intro himports hfresh hread)]

/-- However many levels there are beyond the longest chain, the result is the same. -/
theorem IsReading.inlineWithin_eq {r : Reading} (h : IsReading files url source r) {n m : Nat}
    (hn : chainLimit < n + r.chain.length) (hm : chainLimit < m + r.chain.length) :
    inlineWithin files n r.chain r.file r.text = inlineWithin files m r.chain r.file r.text := by
  have hle := h.length_chain_le
  induction n generalizing m r with
  | zero => omega
  | succ n ih =>
      obtain ⟨m, rfl⟩ : ∃ k, m = k + 1 := ⟨m - 1, by omega⟩
      refine inlineLines_congr fun s hcall => ?_
      have hs := h.of_calls hcall
      have hlength : s.chain.length = r.chain.length + 1 := by
        cases hcall
        rfl
      exact ih hs (by omega) (by omega) hs.length_chain_le

/-! ## Errors come from cycles -/

theorem exists_of_inlineAll_eq_error {α : Type} {inline : α → Except StyleError Inlined}
    {xs : List α}
    {e : StyleError} (h : inlineAll inline xs = .error e) : ∃ x ∈ xs, inline x = .error e := by
  induction xs with
  | nil => cases h
  | cons x rest ih =>
      cases hx : inline x with
      | error fault =>
          rw [inlineAll, hx] at h
          cases h
          exact ⟨x, List.mem_cons_self, hx⟩
      | ok first =>
          cases hrest : inlineAll inline rest with
          | error fault =>
              rw [inlineAll, hx, hrest] at h
              cases h
              obtain ⟨y, hmem, hy⟩ := ih hrest
              exact ⟨y, List.mem_cons_of_mem _ hmem, hy⟩
          | ok others =>
              rw [inlineAll, hx, hrest] at h
              cases h

/-- If every target is a file with a text, an error comes from an import of a file that is being
read, or from a nested call. -/
theorem exists_of_inlineLines_eq_error {r : Reading} (hresolves : Resolves files r.file r.text)
    {e : StyleError}
    (h : inlineAll (inlineLine files inline r.chain r.file) (Text.splitAfterNewline r.text) =
      .error e) :
    (∃ path, Imports files r.file r.text path ∧ path.segments ∈ r.chain ∧
      e = .preprocess r.file (.importCycle path)) ∨
    ∃ s, Calls files s r ∧ inline s.chain s.file s.text = .error e := by
  obtain ⟨line, hline, herror⟩ := exists_of_inlineAll_eq_error h
  unfold inlineLine at herror
  cases htargets : targets? line with
  | none => simp [htargets] at herror
  | some targets =>
      rw [htargets] at herror
      obtain ⟨target, htarget, herror⟩ := exists_of_inlineAll_eq_error herror
      have hnames : Names r.text target :=
        ⟨line, hline, targets, targets?_eq_some_iff.mp htargets, htarget⟩
      obtain ⟨path, hfind, text, hread⟩ := hresolves target hnames
      have himports : Imports files r.file r.text path := ⟨target, hnames, hfind⟩
      simp only [inlineTarget, hfind, hread] at herror
      split at herror
      · rename_i hchain
        cases herror
        exact Or.inl ⟨path, himports, hchain, rfl⟩
      · rename_i hfresh
        cases hinner : inline (path.segments :: r.chain) path text with
        | ok inner => simp [hinner, bind, Except.bind, pure, Except.pure] at herror
        | error fault =>
            rw [hinner] at herror
            cases herror
            exact Or.inr ⟨_, .intro himports hfresh hread, hinner⟩

/-- A call fails only if there is a cycle, and it says so. -/
theorem IsReading.hasCycle_of_error {r : Reading} (h : IsReading files url source r)
    (hresolves : Resolves files r.file r.text)
    (hreached : ∀ path, Reaches files url source path → ∀ text, files.readText path = .ok text →
      Resolves files path text)
    {n : Nat} (hn : chainLimit < n + r.chain.length) {e : StyleError}
    (herror : inlineWithin files n r.chain r.file r.text = .error e) :
    HasCycle files url source ∧ ∃ importer path, e = .preprocess importer (.importCycle path) := by
  have hle := h.length_chain_le
  induction n generalizing r with
  | zero => omega
  | succ n ih =>
      rcases exists_of_inlineLines_eq_error hresolves herror with
        ⟨path, himports, hchain, rfl⟩ | ⟨s, hcall, herror⟩
      · refine ⟨?_, _, _, rfl⟩
        have hpath := h.reaches path himports
        rcases h.ancestor _ hchain with heq | ⟨p, hp, hsegments, hleads⟩
        · exact ⟨path, hpath, Or.inl heq⟩
        · exact ⟨p, hp, Or.inr ⟨path, hleads path himports, hsegments.symm⟩⟩
      · have hs := h.of_calls hcall
        have hle := hs.length_chain_le
        cases hcall with
        | @intro _ path text imports fresh read =>
            have hresolves := hreached path (h.reaches path imports) text read
            exact ih hs hresolves (by simp only [List.length_cons]; omega) herror hle

/-! ## What was inlined has no cycle -/

/-- The file at a path was inlined while the files of `chain` were being read,
and it is none of them. -/
def InlinedBeyond (files : FileTree) (chain : Chain) (path : FilePath) : Prop :=
  path.segments ∉ chain ∧ ∃ n longer text out, chain ⊆ longer ∧ path.segments ∈ longer ∧
    files.readText path = .ok text ∧ inlineWithin files n longer path text = .ok out

theorem exists_of_inlineAll_eq_ok {α : Type} {inline : α → Except StyleError Inlined} {xs : List α}
    {out : Inlined} (h : inlineAll inline xs = .ok out) {x : α} (hmem : x ∈ xs) :
    ∃ piece, inline x = .ok piece := by
  induction xs generalizing out with
  | nil => cases hmem
  | cons y rest ih =>
      obtain ⟨first, others, hfirst, hothers, -⟩ := inlineAll_cons_eq_ok.mp h
      rcases List.mem_cons.mp hmem with rfl | hmem
      · exact ⟨first, hfirst⟩
      · exact ih hothers hmem

/-- All that an inlined text imports was inlined, beyond the files that were being read. -/
theorem inlinedBeyond_of_imports {n : Nat} {chain longer : Chain} {file : FilePath} {text : Text}
    {out : Inlined} (h : inlineWithin files n longer file text = .ok out) (hchain : chain ⊆ longer)
    {path : FilePath} (himports : Imports files file text path) :
    InlinedBeyond files chain path := by
  cases n with
  | zero => cases h
  | succ n =>
      obtain ⟨target, ⟨line, hline, targets, htargets, htarget⟩, hfind⟩ := himports
      obtain ⟨piece, hpiece⟩ := exists_of_inlineAll_eq_ok h hline
      rw [inlineLine, targets?_eq_some_iff.mpr htargets] at hpiece
      obtain ⟨piece, hpiece⟩ := exists_of_inlineAll_eq_ok hpiece htarget
      obtain ⟨found, inner, out, hfound, hfresh, hread, hinner, -⟩ :=
        inlineTarget_eq_ok_iff.mp hpiece
      obtain rfl : path = found := Option.some.inj (hfind.symm.trans hfound)
      exact ⟨fun hmem => hfresh (hchain hmem), n, path.segments :: longer, inner, out,
        fun segments hmem => List.mem_cons_of_mem _ (hchain hmem), List.mem_cons_self, hread,
        hinner⟩

theorem InlinedBeyond.step {chain : Chain} {p q : FilePath} (h : InlinedBeyond files chain p)
    (hpq : FileImports files p q) : InlinedBeyond files chain q := by
  obtain ⟨-, n, longer, text, out, hchain, -, hread, hout⟩ := h
  obtain ⟨text', hread', himports⟩ := hpq
  obtain rfl : text = text' := Except.ok.inj (hread.symm.trans hread')
  exact inlinedBeyond_of_imports hout hchain himports

/-- A file that was inlined does not import itself, for it would have been
found in its own chain. -/
theorem InlinedBeyond.not_same {chain : Chain} {p again : FilePath}
    (h : InlinedBeyond files chain p)
    (hleads : TransGen (FileImports files) p again) : ¬again.Same p := by
  obtain ⟨-, n, longer, text, out, -, hself, hread, hout⟩ := h
  have hbeyond : InlinedBeyond files longer again := by
    induction hleads with
    | single hpq =>
        obtain ⟨text', hread', himports⟩ := hpq
        obtain rfl : text = text' := Except.ok.inj (hread.symm.trans hread')
        exact inlinedBeyond_of_imports hout (List.Subset.refl longer) himports
    | tail _ hpq ih => exact ih.step hpq
  intro hsame
  exact hbeyond.1 (hsame ▸ hself)

theorem inlinedBeyond_of_reaches {out : Inlined} (h : Import.inline files url source = .ok out)
    {path : FilePath} (hpath : Reaches files url source path) :
    InlinedBeyond files [url.segments] path := by
  obtain ⟨first, hfirst, hpath⟩ := hpath
  induction hpath with
  | refl => exact inlinedBeyond_of_imports h (List.Subset.refl _) hfirst
  | tail _ hpq ih => exact ih.step hpq

theorem not_hasCycle_of_inline {out : Inlined} (h : Import.inline files url source = .ok out) :
    ¬HasCycle files url source := by
  rintro ⟨path, hpath, hcycle⟩
  have hbeyond := inlinedBeyond_of_reaches h hpath
  rcases hcycle with hsame | ⟨again, hleads, hsame⟩
  · exact hbeyond.1 (List.mem_singleton.mpr hsame)
  · exact hbeyond.not_same hleads hsame

end Import

/-- Inlining comes to an end, and the levels that it counts down do not matter for its result.  If
every target that is reached is a file with a text, it fails with a cycle exactly if there is one,
and else it succeeds. -/
theorem inlineImports_cycle_iff {files : FileTree} {url : FilePath} {source : Text}
    (h : Import.ResolvesThroughout files url source) (wantsMap : Bool) :
    Acc (Import.Calls files) ⟨[url.segments], url, source⟩ ∧
      (∀ n, Import.chainLimit ≤ n →
        Import.inlineWithin files n [url.segments] url source = Import.inline files url source) ∧
      ((∃ importer path, inlineImports files source url wantsMap =
          .error (.preprocess importer (.importCycle path))) ↔ Import.HasCycle files url source) ∧
      ((∃ out, inlineImports files source url wantsMap = .ok out) ↔
        ¬Import.HasCycle files url source) := by
  have hstart := Import.IsReading.start files url source
  have herror : ∀ e, Import.inline files url source = .error e →
      Import.HasCycle files url source ∧
        ∃ importer path, e = .preprocess importer (.importCycle path) :=
    fun e => hstart.hasCycle_of_error h.1 h.2 (Nat.lt_succ_self _)
  have hlevels : ∀ n, Import.chainLimit ≤ n →
      Import.inlineWithin files n [url.segments] url source = Import.inline files url source :=
    fun n hn => hstart.inlineWithin_eq (Nat.lt_succ_of_le hn) (Nat.lt_succ_self _)
  refine ⟨hstart.acc, hlevels, ?_⟩
  unfold inlineImports
  cases hinline : Import.inline files url source with
  | ok inlined =>
      have hnone := Import.not_hasCycle_of_inline hinline
      simp [hnone]
  | error e =>
      obtain ⟨hcycle, importer, path, rfl⟩ := herror e hinline
      simp [hcycle]

namespace Import

theorem diamondTree_reaches {path : FilePath}
    (h : Reaches diamondTree ⟨"a.scss"⟩ "@import 'b', 'c';\n" path) :
    path = ⟨"b.scss"⟩ ∨ path = ⟨"c.scss"⟩ := by
  obtain ⟨first, ⟨target, hnames, hfind⟩, hpath⟩ := h
  induction hpath with
  | refl =>
      have hmem : target ∈ ["b".toList, "c".toList] := names_iff.mp hnames
      rcases List.mem_cons.mp hmem with rfl | hmem
      · exact Or.inl (Option.some.inj hfind).symm
      · obtain rfl := List.mem_singleton.mp hmem
        exact Or.inr (Option.some.inj hfind).symm
  | tail _ hpq ih =>
      obtain ⟨text, hread, target, hnames, hfind⟩ := hpq
      rcases ih with rfl | rfl
      · cases hread
        have hmem : target ∈ ["c.scss".toList] := names_iff.mp hnames
        obtain rfl := List.mem_singleton.mp hmem
        exact Or.inr (Option.some.inj hfind).symm
      · cases hread
        exact nomatch (names_iff.mp hnames : target ∈ [])

theorem diamondTree_resolvesThroughout :
    ResolvesThroughout diamondTree ⟨"a.scss"⟩ "@import 'b', 'c';\n" := by
  refine ⟨fun target hnames => ?_, fun path hpath text hread target hnames => ?_⟩
  · have hmem : target ∈ ["b".toList, "c".toList] := names_iff.mp hnames
    rcases List.mem_cons.mp hmem with rfl | hmem
    · exact ⟨⟨"b.scss"⟩, rfl, _, rfl⟩
    · obtain rfl := List.mem_singleton.mp hmem
      exact ⟨⟨"c.scss"⟩, rfl, _, rfl⟩
  · rcases diamondTree_reaches hpath with rfl | rfl
    · cases hread
      have hmem : target ∈ ["c.scss".toList] := names_iff.mp hnames
      obtain rfl := List.mem_singleton.mp hmem
      exact ⟨⟨"c.scss"⟩, rfl, _, rfl⟩
    · cases hread
      exact nomatch (names_iff.mp hnames : target ∈ [])

end Import

/-- A file that is imported along two branches is no cycle. -/
theorem inlineImports_cycle_iff_diamondTree :
    let source : Text := "@import 'b', 'c';\n"
    Import.ResolvesThroughout diamondTree ⟨"a.scss"⟩ source ∧
      (∃ out, inlineImports diamondTree source ⟨"a.scss"⟩ true = .ok out) ∧
      ¬Import.HasCycle diamondTree ⟨"a.scss"⟩ source := by
  intro source
  have hresolves := Import.diamondTree_resolvesThroughout
  have hout : ∃ out, inlineImports diamondTree source ⟨"a.scss"⟩ true = .ok out := ⟨_, rfl⟩
  obtain ⟨-, -, -, hok⟩ := inlineImports_cycle_iff hresolves true
  exact ⟨hresolves, hout, hok.mp hout⟩

/-- Of two files that import each other, the second one is where the cycle is found. -/
example :
    let other := diamondTree.edit (.write ⟨"c.scss"⟩ (Text.utf8 "@import 'b';") 9)
    inlineImports other "@import 'b', 'c';\n" ⟨"a.scss"⟩ true =
      .error (.preprocess ⟨"c.scss"⟩ (.importCycle ⟨"b.scss"⟩)) := by
  rfl

end ComponentLoader
