import ComponentLoader.Proofs.Text.Space
import ComponentLoader.Text.Identifier
import Mathlib.Data.List.Infix
set_option autoImplicit false

/-!
# Pieces of texts

What an operation finds in a text is a contiguous piece of that text: no operation changes or brings
together characters that stand apart.
-/

namespace ComponentLoader.Text

variable {text : Text}

theorem trimStart_isSuffix (text : Text) : trimStart text <:+ text :=
  List.dropWhile_suffix isSpace

theorem trim_isInfix (text : Text) : trim text <:+: text := by
  obtain ⟨before, after, -, -, htext⟩ := exists_eq_append_trim text
  exact ⟨before, after, by rw [List.append_assoc, ← htext]⟩

theorem upTo_isPrefix (sep : Char) (text : Text) : upTo sep text <+: text :=
  List.takeWhile_prefix _

theorem isPrefix_of_cut {sep : Char} {before after : Text}
    (h : cut sep text = some (before, after)) :
    before <+: text :=
  ⟨sep :: after, (cut_eq_some h).symm⟩

theorem isSuffix_of_cut {sep : Char} {before after : Text}
    (h : cut sep text = some (before, after)) :
    after <:+ text :=
  ⟨before ++ [sep], by rw [cut_eq_some h, List.append_assoc, List.singleton_append]⟩

theorem isInfix_of_mem_splitOn {sep : Char} {piece : Text} (h : piece ∈ splitOn sep text) :
    piece <:+: text := by
  -- the first piece is a prefix, which the others need not be
  suffices hpieces : ∀ first others, splitOn sep text = first :: others →
      first <+: text ∧ ∀ other ∈ others, other <:+: text by
    cases hsplit : splitOn sep text with
    | nil => exact absurd (hsplit ▸ h) List.not_mem_nil
    | cons first others =>
        obtain ⟨hfirst, hothers⟩ := hpieces first others hsplit
        rcases List.mem_cons.mp (hsplit ▸ h) with rfl | hmem
        · exact hfirst.isInfix
        · exact hothers piece hmem
  clear h
  induction text with
  | nil =>
      rintro first others ⟨⟩
      exact ⟨List.nil_prefix, nofun⟩
  | cons c rest ih =>
      have hbehind {piece : Text} (hpiece : piece <:+: rest) : piece <:+: c :: rest :=
        hpiece.trans (List.suffix_cons c rest).isInfix
      intro first others hsplit
      unfold splitOn at hsplit
      split at hsplit
      · obtain ⟨rfl, rfl⟩ := List.cons.inj hsplit
        refine ⟨List.nil_prefix, fun other hmem => ?_⟩
        cases hrest : splitOn sep rest with
        | nil => exact absurd (hrest ▸ hmem) List.not_mem_nil
        | cons next more =>
            obtain ⟨hnext, hmore⟩ := ih next more hrest
            rcases List.mem_cons.mp (hrest ▸ hmem) with rfl | hmem
            · exact hbehind hnext.isInfix
            · exact hbehind (hmore other hmem)
      · split at hsplit
        · obtain ⟨rfl, rfl⟩ := List.cons.inj hsplit
          exact ⟨⟨rest, rfl⟩, nofun⟩
        · rename_i next more hrest
          obtain ⟨rfl, rfl⟩ := List.cons.inj hsplit
          obtain ⟨hnext, hmore⟩ := ih next more hrest
          exact ⟨(List.prefix_cons_inj c).mpr hnext, fun other hmem => hbehind (hmore other hmem)⟩

theorem isSuffix_of_afterLast? {pattern after : Text} (h : afterLast? pattern text = some after) :
    after <:+ text := by
  obtain ⟨⟨before, found⟩, hseek, rfl⟩ := Option.map_eq_some_iff.mp h
  have hwhole := congrArg List.reverse (seek_eq_some hseek)
  rw [List.reverse_reverse, List.reverse_append] at hwhole
  exact ⟨found.reverse, hwhole.symm⟩

theorem isSuffix_of_dropLead? {lead rest : Text} (h : dropLead? lead text = some rest) :
    rest <:+ text :=
  ⟨lead, (dropLead?_eq_some_iff.mp h).symm⟩

theorem isSuffix_of_afterKeyword? {keyword rest : Text}
    (h : afterKeyword? keyword text = some rest) :
    rest <:+ text := by
  obtain ⟨behind, hlead, hrest⟩ := Option.bind_eq_some_iff.mp h
  refine List.IsSuffix.trans ?_ (isSuffix_of_dropLead? hlead)
  split at hrest
  · cases hrest
    exact List.suffix_rfl
  · split at hrest
    · cases hrest
    · cases hrest
      exact trimStart_isSuffix _

end ComponentLoader.Text
