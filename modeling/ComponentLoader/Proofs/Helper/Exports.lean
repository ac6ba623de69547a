import ComponentLoader.Helper.Index
import ComponentLoader.Proofs.OrderedMap
import ComponentLoader.Proofs.Text.Piece
import Mathlib.Data.List.Induction
set_option autoImplicit false

/-!
# Names that are exported (SPEC §4.4)

Every form of export takes its names from the text in one way, as the identifier with which some
part of it begins.  So a name is a part of the script that holds identifier characters only, and so
is every name of an index that was scanned.
-/

namespace ComponentLoader

namespace Text

/-- The name is an identifier at the front of some text. -/
def IsIdentifier (name : Text) : Prop :=
  ∃ text, identifier? text = some name

theorem IsIdentifier.not_mem {name : Text} (h : name.IsIdentifier) {c : Char}
    (hc : isIdentifierChar c = false) : c ∉ name := by
  obtain ⟨text, htext⟩ := h
  obtain ⟨-, hchars, -⟩ := identifier?_eq_some htext
  intro hmem
  rw [hchars c hmem] at hc
  cases hc

/-- The name is the identifier at the front of some part of the text. -/
def FoundIn (name text : Text) : Prop :=
  ∃ part, part <:+: text ∧ identifier? part = some name

namespace FoundIn

variable {name part text : Text}

theorem isIdentifier (h : name.FoundIn text) : name.IsIdentifier :=
  h.imp fun _ => And.right

theorem isInfix (h : name.FoundIn text) : name <:+: text := by
  obtain ⟨part, hpart, hname⟩ := h
  exact (identifier?_eq_some hname).2.2.2.isInfix.trans hpart

theorem trans (h : name.FoundIn part) (hpart : part <:+: text) : name.FoundIn text := by
  obtain ⟨inner, hinner, hname⟩ := h
  exact ⟨inner, hinner.trans hpart, hname⟩

theorem of_mem_toList (h : name ∈ (identifier? part).toList) (hpart : part <:+: text) :
    name.FoundIn text :=
  ⟨part, hpart, Option.mem_toList.mp h⟩

end FoundIn

end Text

namespace Exports

/-! ## Where names are found -/

theorem dropDots_isSuffix (text : Text) : dropDots text <:+ text := by
  fun_induction dropDots text with
  | case1 rest ih => exact ih.trans ⟨"...".toList, rfl⟩
  | case2 text => exact List.suffix_rfl

theorem afterColon_isSuffix (text : Text) : afterColon text <:+ text := by
  unfold afterColon
  split
  · rename_i hcut
    exact Text.isSuffix_of_cut hcut
  · exact List.suffix_rfl

section

variable {name text : Text}

theorem foundIn_of_listedName? (h : listedName? text = some name) : name.FoundIn text := by
  refine Text.FoundIn.trans ⟨_, ?_, h⟩ (Text.trim_isInfix text)
  cases hafter : Text.afterLast? " as " (Text.trim text) with
  | none => exact List.infix_rfl
  | some after => exact (Text.trim_isInfix after).trans (Text.isSuffix_of_afterLast? hafter).isInfix

theorem foundIn_of_boundName? (h : boundName? text = some name) : name.FoundIn text := by
  let bare := dropDots (Text.trim text)
  have hbare : bare <:+: text := (dropDots_isSuffix _).isInfix.trans (Text.trim_isInfix text)
  have hbinding := (Text.upTo_isPrefix '=' (afterColon bare)).isInfix.trans
    (afterColon_isSuffix bare).isInfix
  exact ⟨_, (Text.trim_isInfix _).trans (hbinding.trans hbare), h⟩

/-- Names that are read item by item from the front of a text are found in it. -/
theorem foundIn_of_mem_items {read? : Text → Option Text}
    (hread : ∀ {item}, read? item = some name → name.FoundIn item) {close : Char}
    {items after : Text} (hcut : Text.cut close text = some (items, after))
    (h : name ∈ (Text.splitOn ',' items).filterMap read?) : name.FoundIn text := by
  obtain ⟨item, hitem, hname⟩ := List.mem_filterMap.mp h
  exact (hread hname).trans
    ((Text.isInfix_of_mem_splitOn hitem).trans (Text.isPrefix_of_cut hcut).isInfix)

theorem foundIn_of_listedNames (h : name ∈ listedNames text) : name.FoundIn text := by
  unfold listedNames at h
  split at h
  · cases h
  · rename_i hcut
    exact foundIn_of_mem_items foundIn_of_listedName? hcut h

theorem foundIn_of_boundNames {close : Char} (h : name ∈ boundNames close text) :
    name.FoundIn text := by
  unfold boundNames at h
  split at h
  · cases h
  · rename_i hcut
    exact foundIn_of_mem_items foundIn_of_boundName? hcut h

theorem foundIn_of_declaredNames (h : name ∈ declaredNames text) : name.FoundIn text := by
  unfold declaredNames at h
  split at h
  · exact (foundIn_of_boundNames h).trans (List.suffix_cons ..).isInfix
  · exact (foundIn_of_boundNames h).trans (List.suffix_cons ..).isInfix
  · exact .of_mem_toList h List.infix_rfl

theorem foundIn_of_functionNames (h : name ∈ functionNames text) : name.FoundIn text := by
  refine .of_mem_toList h ((Text.trimStart_isSuffix _).trans ?_).isInfix
  cases hstar : Text.dropLead? "*" text with
  | none => exact List.suffix_rfl
  | some rest => exact Text.isSuffix_of_dropLead? hstar

theorem isSuffix_of_afterVariableKeyword? {rest : Text}
    (h : afterVariableKeyword? text = some rest) :
    rest <:+ text := by
  unfold afterVariableKeyword? at h
  rcases Option.or_eq_some_iff.mp h with hconst | ⟨-, h⟩
  · exact Text.isSuffix_of_afterKeyword? hconst
  · rcases Option.or_eq_some_iff.mp h with hlet | ⟨-, hvar⟩
    · exact Text.isSuffix_of_afterKeyword? hlet
    · exact Text.isSuffix_of_afterKeyword? hvar

theorem foundIn_of_namesAfter (h : name ∈ namesAfter text) : name.FoundIn text := by
  refine Text.FoundIn.trans ?_ (Text.trimStart_isSuffix text).isInfix
  unfold namesAfter at h
  split at h
  · rename_i hstart
    rw [hstart]
    exact (foundIn_of_listedNames h).trans (List.suffix_cons ..).isInfix
  · rename_i rest hstart
    obtain ⟨found, hfound, hname⟩ := Option.bind_eq_some_iff.mp (Option.mem_toList.mp h)
    rw [hstart]
    have hrest := (Text.isSuffix_of_afterKeyword? hfound).trans (Text.trimStart_isSuffix rest)
    exact ⟨found, (hrest.trans (List.suffix_cons ..)).isInfix, hname⟩
  · split at h
    · rename_i rest hfunction
      refine (foundIn_of_functionNames h).trans
        ((Text.isSuffix_of_afterKeyword? hfunction).trans ?_).isInfix
      cases hasync : Text.afterKeyword? "async" (Text.trimStart text) with
      | none => exact List.suffix_rfl
      | some after => exact Text.isSuffix_of_afterKeyword? hasync
    · cases hvariable : afterVariableKeyword? (Text.trimStart text) with
      | none => simp [hvariable] at h
      | some rest =>
          rw [hvariable] at h
          exact (foundIn_of_declaredNames h).trans
            (isSuffix_of_afterVariableKeyword? hvariable).isInfix

theorem isSuffix_of_mem_exportTails {atStart : Bool} {script tail : Text}
    (h : tail ∈ exportTails atStart script) : tail <:+ script := by
  induction script generalizing atStart with
  | nil => cases h
  | cons c rest ih =>
      rcases List.mem_append.mp h with hhere | hrest
      · split at hhere
        · rw [List.mem_singleton.mp hhere]
          exact (List.drop_suffix _ _).trans (Text.trimStart_isSuffix _)
        · cases hhere
      · exact (ih hrest).trans (List.suffix_cons c rest)

end

/-! ## Repeated names -/

/-- Of names that are repeated the first ones are kept. -/
theorem distinct_eq_eraseDups (names : List Text) : distinct names = names.eraseDups := by
  induction names using List.reverseRecOn with
  | nil => rfl
  | append_singleton front name ih =>
      unfold distinct at ih ⊢
      rw [List.foldl_concat, ih, List.eraseDups_append]
      by_cases hmem : name ∈ front
      · simp [hmem, List.removeAll]
      · simp [hmem, List.removeAll, List.eraseDups_cons]

theorem nodup_distinct (names : List Text) : (distinct names).Nodup := by
  induction names using List.reverseRecOn with
  | nil => exact List.nodup_nil
  | append_singleton front name ih =>
      unfold distinct at ih ⊢
      rw [List.foldl_concat]
      split
      · exact ih
      · rename_i hnew
        refine List.nodup_append.mpr ⟨ih, List.pairwise_singleton _ name, ?_⟩
        rintro kept hkept _ hname rfl
        rw [List.mem_singleton.mp hname] at hkept
        exact hnew (List.elem_eq_true_of_mem hkept)

end Exports

theorem foundIn_of_exportNames {script name : Text} (h : name ∈ exportNames script) :
    name.FoundIn script := by
  unfold exportNames at h
  rw [Exports.distinct_eq_eraseDups, List.mem_eraseDups] at h
  obtain ⟨tail, htail, hname⟩ := List.mem_flatMap.mp h
  exact (Exports.foundIn_of_namesAfter hname).trans
    (Exports.isSuffix_of_mem_exportTails htail).isInfix

/-- Every exported name is an identifier. -/
theorem isIdentifier_of_exportNames {script name : Text} (h : name ∈ exportNames script) :
    name.IsIdentifier :=
  (foundIn_of_exportNames h).isIdentifier

/-! ## Indexes -/

/-- Every helper of the index was found in some script. -/
def HelperIndex.FoundBy (index : HelperIndex) (exports : ExportReader) : Prop :=
  ∀ name path, (name, path) ∈ index.symbols.entries → ∃ script, name ∈ exports script

namespace HelperScan

variable {exports : ExportReader} {scan : HelperScan} {script : Text}

theorem foundBy_addName (h : scan.index.FoundBy exports) {name : Text}
    (hname : name ∈ exports script)
    (file : FilePath) : (scan.addName file name).index.FoundBy exports := by
  unfold addName HelperIndex.add
  cases scan.index.get? name with
  | some first => exact h
  | none =>
      intro found path hmem
      rcases OrderedMap.mem_entries_insert hmem with hold | ⟨-, rfl | ⟨-, old, hold⟩⟩
      · exact h found path hold
      · exact ⟨script, hname⟩
      · exact h found old hold

theorem foundBy_addFile (h : scan.index.FoundBy exports) (file : FilePath) {names : List Text}
    (hnames : ∀ name ∈ names, name ∈ exports script) :
    (scan.addFile file names).index.FoundBy exports := by
  unfold addFile
  induction names generalizing scan with
  | nil => exact h
  | cons name rest ih =>
      rw [List.foldl_cons]
      have hfirst := foundBy_addName h (hnames name List.mem_cons_self) file
      exact ih hfirst fun other hmem => hnames other (List.mem_cons_of_mem _ hmem)

end HelperScan

/-- An index that was scanned holds nothing else. -/
theorem foundBy_of_scanHelpers {exports : ExportReader} {files : FileTree} {paths : List FilePath}
    {scan : HelperScan} (h : scanHelpers exports files paths = .ok scan) :
    scan.index.FoundBy exports := by
  have hempty : HelperScan.empty.index.FoundBy exports := fun name path hmem => nomatch hmem
  unfold scanHelpers at h
  generalize HelperScan.empty = before at h hempty
  induction paths generalizing before with
  | nil =>
      cases h
      exact hempty
  | cons path rest ih =>
      rw [List.foldlM_cons] at h
      cases hread : files.readText path with
      | error fault => simp [hread, bind, Except.bind] at h
      | ok script =>
          simp only [hread, bind, Except.bind] at h
          exact ih _ h (HelperScan.foundBy_addFile hempty path fun name hmem => hmem)

end ComponentLoader
