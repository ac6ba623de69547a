import ComponentLoader.Proofs.Text.Basic
import ComponentLoader.Proofs.Text.Space
import ComponentLoader.Style.Import
set_option autoImplicit false

/-!
# Import lines (SPEC §4.3)

What is looked for in a stylesheet, as a grammar: a line of blanks, `@import`, quoted local targets
with commas between them, and a semicolon.  Blanks may stand between any two of these, and nothing
else.  The reader trims and splits, and it reads exactly these lines (`targets?_eq_some_iff`).
-/

namespace ComponentLoader.Import

/-! ## The grammar -/

/-- A text that consists of blanks. -/
def Blank (text : Text) : Prop :=
  text.all Text.isSpace = true

/-- A target in quotes. -/
def IsQuoted (target text : Text) : Prop :=
  ∃ quote, (quote = '"' ∨ quote = '\'') ∧ text = quote :: (target ++ [quote])

/-- Local targets in quotes, with a comma between neighbours. -/
inductive IsTargetList : List Text → Text → Prop where
  | one {target text : Text} (quoted : IsQuoted target text) (noComma : ',' ∉ target)
      (isLocal : isRemote target = false) : IsTargetList [target] text
  | cons {target text before after rest : Text} {targets : List Text}
      (quoted : IsQuoted target text)
      (noComma : ',' ∉ target) (isLocal : isRemote target = false) (before_blank : Blank before)
      (after_blank : Blank after) (others : IsTargetList targets rest) :
      IsTargetList (target :: targets) (text ++ (before ++ ',' :: (after ++ rest)))

/-- A line that imports local targets and does nothing else. -/
def IsImport (targets : List Text) (line : Text) : Prop :=
  ∃ before first list last after, Blank before ∧ Blank first ∧ Blank last ∧ Blank after ∧
    IsTargetList targets list ∧
    line = before ++ ("@import" ++ (first ++ (list ++ (last ++ ';' :: after))))

/-! ## Targets -/

theorem unquoted?_eq_some_iff {quote : Char} {text target : Text} :
    unquoted? quote text = some target ↔ text = quote :: (target ++ [quote]) := by
  unfold unquoted?
  cases hlead : Text.dropLead? [quote] text with
  | none =>
      refine iff_of_false (by simp) fun htext => ?_
      rw [Text.dropLead?_eq_some_iff.mpr htext] at hlead
      cases hlead
  | some rest =>
      obtain rfl := Text.dropLead?_eq_some_iff.mp hlead
      simp [Text.dropTail?_eq_some_iff]

theorem orElse_unquoted?_eq_some_iff {text target : Text} :
    ((unquoted? '"' text).orElse fun _ => unquoted? '\'' text) = some target ↔
      IsQuoted target text := by
  constructor
  · intro h
    cases hdouble : unquoted? '"' text with
    | none =>
        rw [hdouble] at h
        exact ⟨'\'', Or.inr rfl, unquoted?_eq_some_iff.mp h⟩
    | some found =>
        rw [hdouble] at h
        cases h
        exact ⟨'"', Or.inl rfl, unquoted?_eq_some_iff.mp hdouble⟩
  · rintro ⟨quote, rfl | rfl, htext⟩
    · rw [unquoted?_eq_some_iff.mpr htext]
      rfl
    · have hdouble : unquoted? '"' text = none := by
        cases hfound : unquoted? '"' text with
        | none => rfl
        | some found =>
            have hother := unquoted?_eq_some_iff.mp hfound
            rw [htext] at hother
            cases hother
      rw [hdouble]
      exact unquoted?_eq_some_iff.mpr htext

/-- A part of an import names a target if that is what stands in it between blanks. -/
theorem localTarget?_eq_some_iff {part target : Text} :
    localTarget? part = some target ↔
      IsQuoted target (Text.trim part) ∧ isRemote target = false := by
  rw [← orElse_unquoted?_eq_some_iff]
  unfold localTarget?
  dsimp only
  cases (unquoted? '"' (Text.trim part)).orElse fun _ => unquoted? '\'' (Text.trim part) with
  | none => simp
  | some found =>
      dsimp only
      split
      · rename_i hremote
        refine iff_of_false (by simp) ?_
        rintro ⟨heq, hlocal⟩
        cases heq
        rw [hremote] at hlocal
        cases hlocal
      · rename_i hlocal
        refine ⟨fun heq => ⟨heq, ?_⟩, fun h => h.1⟩
        cases heq
        simpa using hlocal

theorem IsQuoted.isSpace_of_head? {target text : Text} (h : IsQuoted target text) (rest : Text)
    {c : Char} (hc : c ∈ (text ++ rest).head?) : Text.isSpace c = false := by
  obtain ⟨quote, rfl | rfl, rfl⟩ := h <;> cases hc <;> decide

theorem IsQuoted.isSpace_of_getLast? {target text : Text} (h : IsQuoted target text)
    {c : Char} (hc : c ∈ text.getLast?) : Text.isSpace c = false := by
  obtain ⟨quote, hquote, rfl⟩ := h
  rw [← List.cons_append, List.getLast?_concat] at hc
  cases hc
  rcases hquote with rfl | rfl <;> decide

theorem IsQuoted.localTarget? {target text before after : Text} (h : IsQuoted target text)
    (hlocal : isRemote target = false) (hbefore : Blank before) (hafter : Blank after) :
    localTarget? (before ++ (text ++ after)) = some target := by
  rw [localTarget?_eq_some_iff, Text.trim_append_append hbefore hafter
    (fun c hc => h.isSpace_of_head? [] (by rwa [List.append_nil])) fun c => h.isSpace_of_getLast?]
  exact ⟨h, hlocal⟩

theorem IsQuoted.comma_not_mem {target text : Text} (h : IsQuoted target text) :
    ',' ∉ text ↔ ',' ∉ target := by
  obtain ⟨quote, rfl | rfl, rfl⟩ := h <;> simp

theorem Blank.nil : Blank [] := rfl

theorem Blank.comma_not_mem {text : Text} (h : Blank text) : ',' ∉ text := by
  intro hmem
  exact absurd (List.all_eq_true.mp h _ hmem) (by decide)

/-! ## Lists of targets -/

theorem localTarget?_blanks {before after : Text} (hbefore : Blank before) (hafter : Blank after)
    (text : Text) : localTarget? (before ++ (text ++ after)) = localTarget? text := by
  unfold localTarget?
  rw [Text.trim_blanks hbefore hafter]

/-- Blanks around a list of targets do not count. -/
theorem mapM_splitOn_blanks {before after : Text} (hbefore : Blank before) (hafter : Blank after)
    (text : Text) : (Text.splitOn ',' (before ++ (text ++ after))).mapM localTarget? =
      (Text.splitOn ',' text).mapM localTarget? := by
  induction hsize : text.length using Nat.strongRecOn generalizing before text with
  | ind size ih =>
      by_cases hmem : ',' ∈ text
      · obtain ⟨piece, rest, rfl, hpiece⟩ := List.eq_append_cons_of_mem hmem
        have hfirst : ',' ∉ before ++ piece := by simp [hbefore.comma_not_mem, hpiece]
        have hrest := ih rest.length (by simp [← hsize]; omega) Blank.nil rest rfl
        have hpart : localTarget? (before ++ piece) = localTarget? piece := by
          simpa using localTarget?_blanks hbefore Blank.nil piece
        rw [show before ++ (piece ++ ',' :: rest ++ after) =
            (before ++ piece) ++ ',' :: (rest ++ after) by simp,
          Text.splitOn_append_cons hfirst, Text.splitOn_append_cons hpiece, List.mapM_cons,
          List.mapM_cons, hpart]
        rw [List.nil_append] at hrest
        rw [hrest]
      · have hwhole : ',' ∉ before ++ (text ++ after) := by
          simp [hbefore.comma_not_mem, hmem, hafter.comma_not_mem]
        rw [Text.splitOn_of_not_mem hwhole, Text.splitOn_of_not_mem hmem, List.mapM_cons,
          List.mapM_cons, localTarget?_blanks hbefore hafter]

theorem IsTargetList.isSpace_of_head? {targets : List Text} {text : Text}
    (h : IsTargetList targets text) (rest : Text) {c : Char} (hc : c ∈ (text ++ rest).head?) :
    Text.isSpace c = false := by
  cases h with
  | one quoted noComma isLocal => exact quoted.isSpace_of_head? _ hc
  | cons quoted noComma isLocal before_blank after_blank others =>
      rw [List.append_assoc] at hc
      exact quoted.isSpace_of_head? _ hc

/-- A list of targets is read as it is. -/
theorem IsTargetList.mapM_splitOn {targets : List Text} {text : Text}
    (h : IsTargetList targets text) :
    (Text.splitOn ',' text).mapM localTarget? = some targets := by
  induction h with
  | @one target text quoted noComma isLocal =>
      have hpart := quoted.localTarget? isLocal Blank.nil Blank.nil
      rw [List.nil_append, List.append_nil] at hpart
      rw [Text.splitOn_of_not_mem (quoted.comma_not_mem.mpr noComma), List.mapM_cons, hpart]
      rfl
  | @cons target text before after rest targets quoted noComma isLocal before_blank after_blank
      _ ih =>
      have hfirst : ',' ∉ text ++ before := by
        simp [quoted.comma_not_mem.mpr noComma, before_blank.comma_not_mem]
      have hpart := quoted.localTarget? isLocal Blank.nil before_blank
      have hrest := mapM_splitOn_blanks after_blank Blank.nil rest
      rw [List.append_nil] at hrest
      rw [List.nil_append] at hpart
      rw [← List.append_assoc, Text.splitOn_append_cons hfirst, List.mapM_cons, hpart, hrest, ih]
      rfl

/-- What is read as targets is a list of them between blanks. -/
theorem exists_isTargetList_of_mapM {text : Text} {targets : List Text}
    (h : (Text.splitOn ',' text).mapM localTarget? = some targets) :
    ∃ before list after, Blank before ∧ Blank after ∧ IsTargetList targets list ∧
      text = before ++ (list ++ after) := by
  induction hsize : text.length using Nat.strongRecOn generalizing text targets with
  | ind size ih =>
      by_cases hmem : ',' ∈ text
      · obtain ⟨piece, rest, rfl, hpiece⟩ := List.eq_append_cons_of_mem hmem
        rw [Text.splitOn_append_cons hpiece, List.mapM_cons] at h
        simp only [Option.bind_eq_bind, Option.bind_eq_some_iff, Option.pure_def,
          Option.some.injEq] at h
        obtain ⟨target, htarget, others, hothers, rfl⟩ := h
        obtain ⟨first, list, after, hfirst, hafter, hlist, rfl⟩ :=
          ih rest.length (by simp [← hsize]; omega) hothers rfl
        obtain ⟨before, last, hbefore, hlast, hwhole⟩ := Text.exists_eq_append_trim piece
        obtain ⟨hquoted, hlocal⟩ := localTarget?_eq_some_iff.mp htarget
        have htrim : ',' ∉ Text.trim piece := fun hmem =>
          hpiece (by rw [hwhole]; simp [hmem])
        refine ⟨before, Text.trim piece ++ (last ++ ',' :: (first ++ list)), after, hbefore, hafter,
          .cons hquoted (hquoted.comma_not_mem.mp htrim) hlocal hlast hfirst hlist, ?_⟩
        conv => lhs; rw [hwhole]
        simp
      · rw [Text.splitOn_of_not_mem hmem, List.mapM_cons] at h
        simp only [List.mapM_nil, Option.bind_eq_bind, Option.bind_eq_some_iff, Option.pure_def,
          Option.some.injEq] at h
        obtain ⟨target, htarget, others, rfl, rfl⟩ := h
        obtain ⟨before, after, hbefore, hafter, hwhole⟩ := Text.exists_eq_append_trim text
        obtain ⟨hquoted, hlocal⟩ := localTarget?_eq_some_iff.mp htarget
        have htrim : ',' ∉ Text.trim text := fun hin => hmem (by rw [hwhole]; simp [hin])
        exact ⟨before, Text.trim text, after, hbefore, hafter,
          .one hquoted (hquoted.comma_not_mem.mp htrim) hlocal, hwhole⟩

/-! ## Lines -/

theorem Blank.append {a b : Text} (ha : Blank a) (hb : Blank b) : Blank (a ++ b) :=
  List.all_append.trans (by rw [ha, hb]; rfl)

/-- The lines that are read as imports are those of the grammar. -/
theorem targets?_eq_some_iff {line : Text} {targets : List Text} :
    targets? line = some targets ↔ IsImport targets line := by
  unfold targets?
  simp only [Option.bind_eq_bind, Option.bind_eq_some_iff, Text.dropLead?_eq_some_iff,
    Text.dropTail?_eq_some_iff]
  constructor
  · rintro ⟨rest, hline, list, hrest, htargets⟩
    obtain ⟨before, inner, after, hbefore, hafter, hinner, hlist⟩ :=
      exists_isTargetList_of_mapM htargets
    obtain ⟨lineFront, lineBack, hlineFront, hlineBack, hwholeLine⟩ :=
      Text.exists_eq_append_trim line
    obtain ⟨restFront, restBack, hrestFront, hrestBack, hwholeRest⟩ :=
      Text.exists_eq_append_trim rest
    obtain ⟨listFront, listBack, hlistFront, hlistBack, hwholeList⟩ :=
      Text.exists_eq_append_trim list
    have hfirst : Blank (restFront ++ (listFront ++ before)) :=
      Blank.append hrestFront (Blank.append hlistFront hbefore)
    refine ⟨lineFront, restFront ++ (listFront ++ before), inner, after ++ listBack,
      restBack ++ lineBack, hlineFront, hfirst, Blank.append hafter hlistBack,
      Blank.append hrestBack hlineBack, hinner, ?_⟩
    rw [hwholeLine, hline, hwholeRest, hrest, hwholeList, hlist]
    simp
  · rintro ⟨before, first, list, last, after, hbefore, hfirst, hlast, hafter, hlist, rfl⟩
    have hline : Text.trim (before ++ ("@import" ++ (first ++ (list ++ (last ++ ';' :: after))))) =
        "@import" ++ (first ++ (list ++ (last ++ [';']))) := by
      rw [show before ++ ("@import" ++ (first ++ (list ++ (last ++ ';' :: after)))) =
        before ++ (("@import" ++ (first ++ (list ++ (last ++ [';'])))) ++ after) by simp]
      refine Text.trim_append_append hbefore hafter (fun c hc => ?_) fun c hc => ?_
      · cases hc
        decide
      · simp only [← List.append_assoc, List.getLast?_concat, Option.mem_some_iff] at hc
        subst hc
        decide
    have hrest : Text.trim (first ++ (list ++ (last ++ [';']))) = (list ++ last) ++ [';'] := by
      rw [show first ++ (list ++ (last ++ [';'])) =
          first ++ ((list ++ (last ++ [';'])) ++ []) by simp,
        Text.trim_append_append hfirst rfl (fun c => hlist.isSpace_of_head? _) fun c hc => ?_]
      · simp
      · simp only [← List.append_assoc, List.getLast?_concat, Option.mem_some_iff] at hc
        subst hc
        decide
    have hlist' : Text.trim (list ++ last) = Text.trim list :=
      Text.trim_blanks Blank.nil hlast list
    obtain ⟨front, back, hfront, hback, hwhole⟩ := Text.exists_eq_append_trim list
    refine ⟨_, hline, _, hrest, ?_⟩
    rw [hlist', ← mapM_splitOn_blanks hfront hback, ← hwhole]
    exact hlist.mapM_splitOn

end ComponentLoader.Import
