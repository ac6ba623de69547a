import ComponentLoader.Helper.Exports
import ComponentLoader.Proofs.Helper.Word
import ComponentLoader.Proofs.Text.Seek
set_option autoImplicit false

/-!
# Phrases of an export list (SPEC §4.4)

An item of an export list is a phrase, which is some words with blanks between them.  The name that
is taken from a phrase depends on the blanks: a word is taken for an alias if it follows a word
`as`, but only where that word has a space, and not another blank, directly on both sides.  Of
several such places the last one counts, and without any the first word of the phrase is taken.
-/

namespace ComponentLoader.Exports

/-- Some words with gaps between them. -/
inductive Phrase where
  | word (word : Word)
  | more (front : Phrase) (gap : Gap) (word : Word)

namespace Phrase

/-- A phrase as it is written. -/
def text : Phrase → Text
  | word w => w.text
  | more front gap w => front.text ++ (gap.text ++ w.text)

/-- The first word. -/
def first : Phrase → Word
  | word w => w
  | more front _ _ => front.first

/-- The last word. -/
def last : Phrase → Word
  | word w => w
  | more _ _ w => w

/-- Whether the last word is `as`, with a space directly before it. -/
def endsInAs : Phrase → Bool
  | word _ => false
  | more _ gap w => gap.text.getLast? = some ' ' && w.text = "as".toList

/-- The word behind the last `as` that has a space directly on both sides. -/
def alias? : Phrase → Option Word
  | word _ => none
  | more front gap w => if gap.text.head? = some ' ' && front.endsInAs then some w else front.alias?

/-- The word that is taken for the name. -/
def taken (phrase : Phrase) : Word :=
  phrase.alias?.getD phrase.first

variable (phrase : Phrase)

/-! ## Ends of a phrase -/

theorem first_isFirstOf : phrase.first.IsFirstOf phrase.text := by
  induction phrase with
  | word w => exact ⟨[], (List.append_nil _).symm, Text.endsWord_nil⟩
  | more front gap w ih => exact ih.of_gap gap w.text

theorem exists_text_eq_last : ∃ front, phrase.text = front ++ phrase.last.text := by
  cases phrase with
  | word w => exact ⟨[], rfl⟩
  | more front gap w => exact ⟨front.text ++ gap.text, (List.append_assoc ..).symm⟩

theorem isSpace_of_getLast? {c : Char} (h : c ∈ phrase.text.getLast?) : Text.isSpace c = false := by
  obtain ⟨front, htext⟩ := phrase.exists_text_eq_last
  rw [htext, List.getLast?_append_of_ne_nil _ phrase.last.ne_nil] at h
  exact phrase.last.isSpace_of_mem (List.mem_of_getLast? h)

/-- A phrase holds blanks and words only. -/
theorem not_mem_text {c : Char} (hspace : Text.isSpace c = false)
    (hword : Text.isIdentifierChar c = false) :
    c ∉ phrase.text := by
  have hnot {w : Word} : c ∉ w.text := fun hmem => by
    rw [w.isIdentifierChar_of_mem hmem] at hword
    cases hword
  induction phrase with
  | word w => exact hnot
  | more front gap w ih =>
      rw [text, List.mem_append, List.mem_append]
      exact not_or.mpr ⟨ih, not_or.mpr ⟨gap.not_mem hspace, hnot⟩⟩

/-- The text of a phrase ends in `as` behind a space only if the phrase does. -/
theorem isSuffix_text_iff : " as".toList <:+ phrase.text ↔ phrase.endsInAs = true := by
  have hspace {w : Word} : ' ' ∉ w.text := fun hmem => absurd (w.isSpace_of_mem hmem) (by decide)
  cases phrase with
  | word w =>
      have hnone : ¬" as".toList <:+ w.text := fun hsuffix => hspace (hsuffix.subset (by decide))
      simpa [text, endsInAs] using hnone
  | more front gap w =>
      have hgap {before : Text} {c : Char} (h : front.text ++ gap.text = before ++ [c]) :
          gap.text.getLast? = some c := by
        rw [← List.getLast?_append_of_ne_nil front.text gap.ne_nil, h, List.getLast?_concat]
      simp only [text, endsInAs, Bool.and_eq_true, decide_eq_true_eq]
      constructor
      · rintro ⟨before, hbefore⟩
        have hends : (before ++ [' ']) ++ "as".toList = (front.text ++ gap.text) ++ w.text := by
          simpa using hbefore
        -- otherwise the last word is longer and holds the space, or the last gap holds a letter
        rcases List.append_eq_append_iff.mp hends with ⟨more, hfront, has⟩ | ⟨more, hfront, has⟩
        · rcases List.eq_nil_or_concat' more with rfl | ⟨others, c, rfl⟩
          · rw [List.append_nil] at hfront
            exact ⟨hgap hfront, has.symm⟩
          · rw [← List.append_assoc] at hfront
            have hblank := gap.isSpace_of_mem (List.mem_of_getLast? (hgap hfront))
            have hletters : ("as".toList.all fun d => !Text.isSpace d) = true := by decide
            have hc := List.all_eq_true.mp hletters c (by rw [has]; simp)
            simp [hblank] at hc
        · rcases List.eq_nil_or_concat' more with rfl | ⟨others, c, rfl⟩
          · rw [List.append_nil] at hfront
            exact ⟨hgap hfront.symm, has⟩
          · have hlast := congrArg List.getLast? hfront
            rw [← List.append_assoc, List.getLast?_concat, List.getLast?_concat] at hlast
            refine absurd ?_ (hspace (w := w))
            rw [has, Option.some.inj hlast]
            simp
      · rintro ⟨hgap, has⟩
        obtain ⟨others, hothers⟩ := List.getLast?_eq_some_iff.mp hgap
        exact ⟨front.text ++ others, by simp [hothers, has]⟩

end Phrase

/-! ## The last `as` -/

/-- An `as` between spaces begins in the last gap of a text, or it is found in front of that gap. -/
theorem afterLast?_append (front : Text) (gap : Gap) (word : Word) :
    Text.afterLast? " as " (front ++ (gap.text ++ word.text)) =
      if gap.text.head? = some ' ' ∧ " as".toList <:+ front then some (gap.text.tail ++ word.text)
      else (Text.afterLast? " as " front).map (· ++ (gap.text ++ word.text)) := by
  obtain ⟨d, blanks, hgap⟩ := List.exists_cons_of_ne_nil gap.ne_nil
  have hblank : ∀ c ∈ d :: blanks, Text.isSpace c = true := fun c hc =>
    gap.isSpace_of_mem (hgap ▸ hc)
  let pattern : Text := " as ".toList.reverse
  -- from its end the pattern is a space and then a letter, so it begins neither in the word nor
  -- between two blanks
  have hword (rest : Text) : ∀ before behind, word.text.reverse = before ++ behind → behind ≠ [] →
      ¬pattern <+: behind ++ rest := by
    intro before behind hfront hne hstarts
    obtain ⟨c, others, rfl⟩ := List.exists_cons_of_ne_nil hne
    have hc : c = ' ' := (List.cons_prefix_cons.mp hstarts).1.symm
    have hmem : c ∈ word.text := List.mem_reverse.mp (hfront ▸ by simp)
    exact absurd (word.isSpace_of_mem hmem) (by rw [hc]; decide)
  have hblanks (rest : Text) : ∀ before behind, blanks.reverse = before ++ behind → behind ≠ [] →
      ¬pattern <+: behind ++ d :: rest := by
    intro before behind hfront hne hstarts
    obtain ⟨c, others, rfl⟩ := List.exists_cons_of_ne_nil hne
    have hnext := (List.cons_prefix_cons.mp hstarts).2
    have hletter {e : Char} (he : e ∈ d :: blanks) : 's' ≠ e := by
      rintro rfl
      exact absurd (hblank _ he) (by decide)
    cases others with
    | nil => exact hletter List.mem_cons_self (List.cons_prefix_cons.mp hnext).1
    | cons e others =>
        have hmem : e ∈ blanks := List.mem_reverse.mp (hfront ▸ by simp)
        exact hletter (List.mem_cons_of_mem _ hmem) (List.cons_prefix_cons.mp hnext).1
  have hreverse : (front ++ (gap.text ++ word.text)).reverse =
      word.text.reverse ++ (blanks.reverse ++ (d :: front.reverse)) := by
    simp [hgap]
  have hstarts : pattern.isPrefixOf (d :: front.reverse) = true ↔
      gap.text.head? = some ' ' ∧ " as".toList <:+ front := by
    rw [List.isPrefixOf_iff_prefix, ← List.reverse_prefix, hgap, List.head?_cons, Option.some_inj,
      eq_comm (a := d)]
    exact List.cons_prefix_cons
  unfold Text.afterLast?
  rw [hreverse, Text.seek_append_of_forall (hword _), Text.seek_append_of_forall (hblanks _),
    Text.seek]
  by_cases has : gap.text.head? = some ' ' ∧ " as".toList <:+ front
  · rw [if_pos (hstarts.mpr has), if_pos has]
    simp [hgap]
  · rw [if_neg (mt hstarts.mp has), if_neg has]
    cases Text.seek pattern front.reverse with
    | none => rfl
    | some found => simp [hgap]

namespace Phrase

variable (phrase : Phrase)

/-- Behind the last `as` between spaces stands the alias of the phrase. -/
theorem afterLast?_text :
    Option.Rel (fun after word => ∃ blanks text, blanks.all Text.isSpace = true ∧
        Word.IsFirstOf word text ∧ after = blanks ++ text)
      (Text.afterLast? " as " phrase.text) phrase.alias? := by
  induction phrase with
  | word w =>
      have hspace : ' ' ∉ w.text.reverse := fun hmem =>
        absurd (w.isSpace_of_mem (List.mem_reverse.mp hmem)) (by decide)
      have hnone : Text.seek " as ".toList.reverse w.text.reverse = none :=
        Text.seek_eq_none_iff.mpr fun hin => hspace (hin.subset (by decide))
      rw [text, alias?, Text.afterLast?, hnone]
      exact .none
  | more front gap w ih =>
      rw [text, alias?, afterLast?_append]
      simp only [isSuffix_text_iff, Bool.and_eq_true, decide_eq_true_eq]
      split
      · have htail : gap.text.tail.all Text.isSpace = true :=
          List.all_eq_true.mpr fun c hc => gap.isSpace_of_mem (List.mem_of_mem_tail hc)
        exact .some ⟨_, _, htail, ⟨[], (List.append_nil _).symm, Text.endsWord_nil⟩, rfl⟩
      · generalize Text.afterLast? " as " front.text = found, front.alias? = word? at ih ⊢
        cases ih with
        | none => exact .none
        | some h =>
            obtain ⟨blanks, text, hblanks, hfirst, rfl⟩ := h
            exact .some ⟨blanks, _, hblanks, hfirst.of_gap gap w.text, List.append_assoc ..⟩

/-- The name that an item of a list gives, with blanks around it that do not count. -/
theorem listedName?_text (before after : Blanks) :
    listedName? (before.text ++ (phrase.text ++ after.text)) = some phrase.taken.text := by
  have htrim : Text.trim (before.text ++ (phrase.text ++ after.text)) = phrase.text :=
    Text.trim_append_append before.isBlank after.isBlank
      (fun _ => phrase.first_isFirstOf.isSpace_of_head?) fun _ => phrase.isSpace_of_getLast?
  have halias := phrase.afterLast?_text
  unfold listedName? taken
  simp only [htrim]
  generalize Text.afterLast? " as " phrase.text = found, phrase.alias? = word? at halias ⊢
  cases halias with
  | none =>
      obtain ⟨rest, htext, hrest⟩ := phrase.first_isFirstOf
      rw [Option.map_none, Option.getD_none, Option.getD_none, htext]
      exact Text.identifier?_append phrase.first.isWord hrest
  | some h =>
      obtain ⟨blanks, text, hblanks, hfirst, rfl⟩ := h
      exact hfirst.identifier?_trim hblanks

end Phrase

end ComponentLoader.Exports
