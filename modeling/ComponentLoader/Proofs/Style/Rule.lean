import ComponentLoader.Proofs.Style.Lexeme
import ComponentLoader.Style.Scope
import Mathlib.Data.List.TakeWhile
set_option autoImplicit false

/-!
# Rules of a stylesheet (SPEC §4.3)

The lexemes of a stylesheet are read from the front: a prelude, the semicolon or brace that ends it,
for an opening brace the block up to the brace that closes it, and so on with what follows.
`cutCases` tells the ways to begin apart and `cutInduction` follows the whole reading; for each of
the cases there is one equation for the scoped text.

A block ends where the braces since its beginning are balanced, so reading fails exactly on
unbalanced braces (`isOk_scopedText_iff`).
-/

namespace ComponentLoader.Scope

open Lexeme (plain textOf Closed)

/-! ## Preludes -/

/-- Nothing ends a prelude. -/
def NoStop (lexemes : List Lexeme) : Prop :=
  ∀ lexeme ∈ lexemes, isStop lexeme = false

instance (lexemes : List Lexeme) : Decidable (NoStop lexemes) :=
  inferInstanceAs (Decidable (∀ lexeme ∈ lexemes, isStop lexeme = false))

@[simp]
theorem noStop_append_iff {front rest : List Lexeme} :
    NoStop (front ++ rest) ↔ NoStop front ∧ NoStop rest := by
  simp only [NoStop, List.mem_append, or_imp, forall_and]

theorem fromStop_eq_nil_iff {lexemes : List Lexeme} : fromStop lexemes = [] ↔ NoStop lexemes := by
  simp [fromStop, NoStop, List.dropWhile_eq_nil_iff]

/-- The first lexeme that ends a prelude is found behind the prelude. -/
theorem fromStop_append {prelude : List Lexeme} (h : NoStop prelude) {stop : Lexeme}
    (hstop : isStop stop = true) (rest : List Lexeme) :
    preludeOf (prelude ++ stop :: rest) = prelude ∧
      fromStop (prelude ++ stop :: rest) = stop :: rest := by
  have hall : ∀ lexeme ∈ prelude, (!isStop lexeme) = true := fun lexeme hmem => by
    rw [h lexeme hmem]
    rfl
  unfold preludeOf fromStop
  rw [List.takeWhile_append_of_pos hall, List.dropWhile_append_of_pos hall]
  simp [hstop]

/-- There is only one first lexeme that ends a prelude. -/
theorem append_stop_inj {prelude prelude' : List Lexeme} (h : NoStop prelude) (h' : NoStop prelude')
    {stop stop' : Lexeme} (hstop : isStop stop = true) (hstop' : isStop stop' = true)
    {rest rest' : List Lexeme} (heq : prelude ++ stop :: rest = prelude' ++ stop' :: rest') :
    prelude = prelude' ∧ stop = stop' ∧ rest = rest' := by
  obtain ⟨hleft, hright⟩ := fromStop_append h hstop rest
  obtain ⟨hleft', hright'⟩ := fromStop_append h' hstop' rest'
  rw [heq] at hleft hright
  exact ⟨hleft.symm.trans hleft', List.cons.inj (hright.symm.trans hright')⟩

/-- Some lexemes are all prelude, or have a first one that ends it. -/
theorem noStop_or_exists_stop (lexemes : List Lexeme) :
    NoStop lexemes ∨ ∃ prelude stop rest, NoStop prelude ∧ isStop stop = true ∧
      lexemes = prelude ++ stop :: rest := by
  cases hstop : fromStop lexemes with
  | nil => exact Or.inl (fromStop_eq_nil_iff.mp hstop)
  | cons stop rest =>
      refine Or.inr ⟨preludeOf lexemes, stop, rest, ?_, ?_, ?_⟩
      · intro lexeme hmem
        simpa using List.mem_takeWhile_imp hmem
      · have hhead := List.head?_dropWhile_not (fun lexeme => !isStop lexeme) lexemes
        rw [show lexemes.dropWhile _ = stop :: rest from hstop] at hhead
        simpa using hhead
      · rw [← hstop]
        exact List.takeWhile_append_dropWhile.symm

theorem isStop_eq_true_iff {lexeme : Lexeme} :
    isStop lexeme = true ↔ lexeme = plain '{' ∨ lexeme = plain ';' ∨ lexeme = plain '}' := by
  simp [isStop, or_assoc]

/-! ## Braces -/

/-- How many braces are open behind some lexemes if `depth` are open before them, unless one is
closed that is not open. -/
def openAfter? (depth : Nat) : List Lexeme → Option Nat
  | [] => some depth
  | lexeme :: rest =>
    if lexeme = plain '}' then
      match depth with
      | 0 => none
      | depth + 1 => openAfter? depth rest
    else openAfter? (if lexeme = plain '{' then depth + 1 else depth) rest

/-- Every brace that is opened is closed, and none is closed that is not open. -/
def Balanced (lexemes : List Lexeme) : Prop :=
  openAfter? 0 lexemes = some 0

instance (lexemes : List Lexeme) : Decidable (Balanced lexemes) :=
  inferInstanceAs (Decidable (openAfter? 0 lexemes = some 0))

theorem openAfter?_cons {lexeme : Lexeme} (h : lexeme ≠ plain '}') (depth : Nat)
    (rest : List Lexeme) :
    openAfter? depth (lexeme :: rest) =
      openAfter? (if lexeme = plain '{' then depth + 1 else depth) rest := by
  cases depth <;> simp [openAfter?, h]

theorem openAfter?_append (depth : Nat) (front rest : List Lexeme) :
    openAfter? depth (front ++ rest) =
      (openAfter? depth front).bind fun depth => openAfter? depth rest := by
  fun_induction openAfter? depth front with
  | case1 => rfl
  | case2 rest => simp [openAfter?]
  | case3 rest depth ih => simpa [openAfter?] using ih
  | case4 depth lexeme rest hclose ih => simpa [openAfter?, hclose] using ih

theorem openAfter?_of_noStop {lexemes : List Lexeme} (h : NoStop lexemes) (depth : Nat) :
    openAfter? depth lexemes = some depth := by
  induction lexemes with
  | nil => rfl
  | cons lexeme rest ih =>
      have hstop : ¬isStop lexeme = true := by simp [h lexeme List.mem_cons_self]
      rw [isStop_eq_true_iff, not_or, not_or] at hstop
      rw [openAfter?_cons hstop.2.2, if_neg hstop.1]
      exact ih fun other hmem => h other (List.mem_cons_of_mem _ hmem)

/-- Braces that were opened before stay open. -/
theorem openAfter?_add {depth depth' : Nat} {lexemes : List Lexeme}
    (h : openAfter? depth lexemes = some depth') (more : Nat) :
    openAfter? (depth + more) lexemes = some (depth' + more) := by
  fun_induction openAfter? depth lexemes with
  | case1 =>
      cases h
      rfl
  | case2 rest => cases h
  | case3 rest depth ih =>
      rw [Nat.succ_add]
      simpa [openAfter?] using ih h
  | case4 depth lexeme rest hclose ih =>
      rw [openAfter?_cons hclose, ← ih h]
      split
      · rw [Nat.add_right_comm]
      · rfl

theorem Balanced.openAfter?_eq {lexemes : List Lexeme} (h : Balanced lexemes) (depth : Nat) :
    openAfter? depth lexemes = some depth := by
  simpa using openAfter?_add h depth

/-- A block is what stands before the first brace that closes more than was opened since. -/
theorem block?_eq_some_iff {depth : Nat} {lexemes body after : List Lexeme} :
    block? depth lexemes = some (body, after) ↔
      lexemes = body ++ plain '}' :: after ∧ openAfter? depth body = some 0 := by
  constructor
  · intro h
    refine ⟨block?_eq_some h, ?_⟩
    fun_induction block? depth lexemes generalizing body with
    | case1 => cases h
    | case2 rest =>
        cases h
        rfl
    | case3 rest depth ih =>
        simp only [Option.map_eq_some_iff, Prod.exists, Prod.mk.injEq] at h
        obtain ⟨inner, tail, hinner, rfl, rfl⟩ := h
        simpa [openAfter?] using ih hinner
    | case4 depth lexeme rest hclose ih =>
        simp only [Option.map_eq_some_iff, Prod.exists, Prod.mk.injEq] at h
        obtain ⟨inner, tail, hinner, rfl, rfl⟩ := h
        simpa [openAfter?, hclose] using ih hinner
  · rintro ⟨rfl, h⟩
    fun_induction openAfter? depth body with
    | case1 depth =>
        cases h
        rfl
    | case2 rest => cases h
    | case3 rest depth ih => simp [block?, ih h]
    | case4 depth lexeme rest hclose ih => simp [block?, hclose, ih h]

/-- Where the braces behind an opening one are balanced with it, it has a block. -/
theorem exists_block?_of_openAfter? {depth : Nat} {lexemes : List Lexeme}
    (h : openAfter? (depth + 1) lexemes = some 0) : ∃ found, block? depth lexemes = some found := by
  fun_induction block? depth lexemes with
  | case1 => cases h
  | case2 rest => exact ⟨_, rfl⟩
  | case3 rest depth ih =>
      obtain ⟨found, hfound⟩ := ih (by simpa [openAfter?] using h)
      exact ⟨_, by rw [hfound]; rfl⟩
  | case4 depth lexeme rest hclose ih =>
      have hrest : openAfter? ((if lexeme = plain '{' then depth + 1 else depth) + 1) rest =
          some 0 := by
        rw [openAfter?_cons hclose] at h
        split at h <;> simp_all
      obtain ⟨found, hfound⟩ := ih hrest
      exact ⟨_, by rw [hfound]; rfl⟩

/-! ## Scoped texts -/

/-- The text of some lexemes with a marker after each selector. -/
def scopedText (mark : Text) (lexemes : List Lexeme) : Except ScopeFault Text :=
  (slotsOf lexemes).map (StylePiece.fillAll mark)

/-- The text of a rule with a marker after each selector, up to the brace that closes its block. -/
def scopedRule (mark prelude : Text) (body : List Lexeme) : Except ScopeFault Text :=
  match Text.trimStart prelude with
  | '@' :: name =>
    if isGroupRule name then (scopedText mark body).map fun inner => prelude ++ '{' :: inner
    else .ok (prelude ++ '{' :: textOf body)
  | selectors =>
    .ok (Text.leadingSpace prelude ++ StylePiece.fillAll mark (selectorListPieces selectors) ++
      '{' :: textOf body)

variable {mark : Text} {prelude : List Lexeme}

/-! ### Rules -/

theorem scopedRule_of_group {text name : Text} (hname : Text.trimStart text = '@' :: name)
    (hgroup : isGroupRule name = true) (body : List Lexeme) :
    scopedRule mark text body = (scopedText mark body).map fun inner => text ++ '{' :: inner := by
  simp only [scopedRule, hname, hgroup, if_true]

theorem scopedRule_of_other {text name : Text} (hname : Text.trimStart text = '@' :: name)
    (hgroup : isGroupRule name = false) (body : List Lexeme) :
    scopedRule mark text body = .ok (text ++ '{' :: textOf body) := by
  simp only [scopedRule, hname, hgroup, Bool.false_eq_true, if_false]

theorem scopedRule_of_style {text : Text} (hstyle : (Text.trimStart text).head? ≠ some '@')
    (body : List Lexeme) :
    scopedRule mark text body =
      .ok (Text.leadingSpace text ++
        StylePiece.fillAll mark (selectorListPieces (Text.trimStart text)) ++
          '{' :: textOf body) := by
  unfold scopedRule
  split
  · rename_i name hname
    simp [hname] at hstyle
  · rfl

/-- An at-rule keeps its prelude, whatever becomes of its block. -/
theorem exists_eq_of_scopedRule_at {text name rule : Text}
    (hname : Text.trimStart text = '@' :: name)
    {body : List Lexeme} (hrule : scopedRule mark text body = .ok rule) :
    ∃ inner, rule = text ++ '{' :: inner := by
  cases hgroup : isGroupRule name with
  | false =>
      rw [scopedRule_of_other hname hgroup] at hrule
      cases hrule
      exact ⟨_, rfl⟩
  | true =>
      rw [scopedRule_of_group hname hgroup] at hrule
      cases hinner : scopedText mark body with
      | error fault =>
          rw [hinner] at hrule
          cases hrule
      | ok inner =>
          rw [hinner] at hrule
          cases hrule
          exact ⟨inner, rfl⟩

/-- A rule can be scoped if its block can. -/
theorem exists_scopedRule {body : List Lexeme} (h : ∃ inner, scopedText mark body = .ok inner)
    (text : Text) : ∃ rule, scopedRule mark text body = .ok rule := by
  obtain ⟨inner, hinner⟩ := h
  unfold scopedRule
  split
  · split
    · exact ⟨_, by rw [hinner]; rfl⟩
    · exact ⟨_, rfl⟩
  · exact ⟨_, rfl⟩

/-! ### Stylesheets -/

theorem scopedText_of_noStop {lexemes : List Lexeme} (h : NoStop lexemes) :
    scopedText mark lexemes = .ok (textOf lexemes) := by
  unfold scopedText
  rw [slotsOf]
  split
  · simp [Except.map]
  · rename_i stop rest hstop
    rw [fromStop_eq_nil_iff.mpr h] at hstop
    cases hstop

@[simp]
theorem scopedText_nil : scopedText mark [] = .ok [] :=
  scopedText_of_noStop fun _ hmem => absurd hmem List.not_mem_nil

/-- The texts and slots of a rule, up to the brace that closes its block. -/
def ruleSlots (prelude : Text) (body : List Lexeme) : Except ScopeFault (List StylePiece) :=
  let head := StylePiece.copied (Text.leadingSpace prelude)
  let trimmed := Text.trimStart prelude
  match trimmed with
  | '@' :: name =>
    if isGroupRule name then
      (slotsOf body).map fun inner => head :: .copied (trimmed ++ ['{']) :: inner
    else .ok [head, .copied (trimmed ++ ['{']), .copied (textOf body)]
  | _ => .ok (head :: (selectorListPieces trimmed ++ [.copied ('{' :: textOf body)]))

/-- A scoped rule is made of its pieces, with the marker in the slots. -/
theorem map_fillAll_ruleSlots (text : Text) (body : List Lexeme) :
    (ruleSlots text body).map (StylePiece.fillAll mark) = scopedRule mark text body := by
  have hwhole (more : Text) :
      Text.leadingSpace text ++ (Text.trimStart text ++ more) = text ++ more := by
    rw [← List.append_assoc, Text.leadingSpace_append_trimStart]
  unfold ruleSlots scopedRule scopedText
  simp only
  split
  · split
    · cases slotsOf body with
      | error fault => rfl
      | ok inner => simp [Except.map, hwhole]
    · simp [Except.map, hwhole]
  · simp [Except.map]

/-- What is read behind a prelude depends on the lexeme that ends it. -/
theorem slotsOf_stop (h : NoStop prelude) {stop : Lexeme} (hstop : isStop stop = true)
    (rest : List Lexeme) :
    slotsOf (prelude ++ stop :: rest) =
      if stop = plain '}' then .error .unexpectedClose
      else if stop = plain ';' then
        (slotsOf rest).map fun others => .copied (textOf prelude ++ [';']) :: others
      else
        match block? 0 rest with
        | none => .error .unclosedOpen
        | some (body, after) =>
          (ruleSlots (textOf prelude) body).bind fun rule =>
            (slotsOf after).map fun others => rule ++ .copied ['}'] :: others := by
  obtain ⟨hprelude, hfrom⟩ := fromStop_append h hstop rest
  rw [slotsOf]
  split
  · simp_all
  rename_i found others hfound
  rw [hfrom] at hfound
  cases hfound
  simp only [hprelude]
  split
  · rfl
  split
  · cases slotsOf rest <;> rfl
  split
  · rename_i hblock
    simp only [hblock]
  · rename_i body after hblock
    simp only [hblock, ruleSlots]
    split
    · rename_i name hname
      simp only [hname]
      split
      · cases slotsOf body with
        | error fault => rfl
        | ok inner => cases slotsOf after <;> rfl
      · cases slotsOf after <;> rfl
    · cases slotsOf after <;> simp [Except.map, Except.bind, bind, pure, Except.pure]

theorem scopedText_stop (h : NoStop prelude) {stop : Lexeme} (hstop : isStop stop = true)
    (rest : List Lexeme) :
    scopedText mark (prelude ++ stop :: rest) =
      if stop = plain '}' then .error .unexpectedClose
      else if stop = plain ';' then
        (scopedText mark rest).map fun others => textOf prelude ++ ';' :: others
      else
        match block? 0 rest with
        | none => .error .unclosedOpen
        | some (body, after) =>
          (scopedRule mark (textOf prelude) body).bind fun rule =>
            (scopedText mark after).map fun others => rule ++ '}' :: others := by
  unfold scopedText
  rw [slotsOf_stop h hstop]
  split
  · rfl
  split
  · cases slotsOf rest <;> simp [Except.map]
  split
  · rfl
  · rename_i body after hblock
    rw [← map_fillAll_ruleSlots]
    cases ruleSlots (textOf prelude) body with
    | error fault => rfl
    | ok rule => cases slotsOf after <;> simp [Except.map, Except.bind]

theorem scopedText_close (h : NoStop prelude) (rest : List Lexeme) :
    scopedText mark (prelude ++ plain '}' :: rest) = .error .unexpectedClose := by
  rw [scopedText_stop h rfl, if_pos rfl]

theorem scopedText_statement (h : NoStop prelude) (rest : List Lexeme) :
    scopedText mark (prelude ++ plain ';' :: rest) =
      (scopedText mark rest).map fun others => textOf prelude ++ ';' :: others := by
  rw [scopedText_stop h rfl, if_neg (by decide), if_pos rfl]

theorem scopedText_unclosed (h : NoStop prelude) {rest : List Lexeme}
    (hblock : block? 0 rest = none) :
    scopedText mark (prelude ++ plain '{' :: rest) = .error .unclosedOpen := by
  rw [scopedText_stop h rfl, if_neg (by decide), if_neg (by decide), hblock]

theorem scopedText_rule (h : NoStop prelude) {body : List Lexeme} (hbody : Balanced body)
    (after : List Lexeme) :
    scopedText mark (prelude ++ plain '{' :: (body ++ plain '}' :: after)) =
      (scopedRule mark (textOf prelude) body).bind fun rule =>
        (scopedText mark after).map fun others => rule ++ '}' :: others := by
  rw [scopedText_stop h rfl, if_neg (by decide), if_neg (by decide),
    block?_eq_some_iff.mpr ⟨rfl, hbody⟩]

/-! ## Reading from the front -/

/-- Some lexemes by the way in which they are read. -/
theorem cutCases {P : List Lexeme → Prop}
    (rest : ∀ lexemes, NoStop lexemes → P lexemes)
    (close : ∀ prelude after, NoStop prelude → P (prelude ++ plain '}' :: after))
    (statement : ∀ prelude after, NoStop prelude → P (prelude ++ plain ';' :: after))
    (unclosed : ∀ prelude after, NoStop prelude → block? 0 after = none →
      P (prelude ++ plain '{' :: after))
    (rule : ∀ prelude body after, NoStop prelude → Balanced body →
      P (prelude ++ plain '{' :: (body ++ plain '}' :: after)))
    (lexemes : List Lexeme) : P lexemes := by
  rcases noStop_or_exists_stop lexemes with hnone | ⟨prelude, stop, after, hprelude, hstop, rfl⟩
  · exact rest lexemes hnone
  rcases isStop_eq_true_iff.mp hstop with rfl | rfl | rfl
  · cases hblock : block? 0 after with
    | none => exact unclosed prelude after hprelude hblock
    | some found =>
        obtain ⟨body, others⟩ := found
        obtain ⟨rfl, hbody⟩ := block?_eq_some_iff.mp hblock
        exact rule prelude body others hprelude hbody
  · exact statement prelude after hprelude
  · exact close prelude after hprelude

/-- What holds of some lexemes by the way in which they are read.  For a rule it may be used of the
block and of what follows. -/
theorem cutInduction {P : List Lexeme → Prop}
    (rest : ∀ lexemes, NoStop lexemes → P lexemes)
    (close : ∀ prelude after, NoStop prelude → P (prelude ++ plain '}' :: after))
    (statement : ∀ prelude after, NoStop prelude → P after → P (prelude ++ plain ';' :: after))
    (unclosed : ∀ prelude after, NoStop prelude → block? 0 after = none →
      P (prelude ++ plain '{' :: after))
    (rule : ∀ prelude body after, NoStop prelude → Balanced body → P body → P after →
      P (prelude ++ plain '{' :: (body ++ plain '}' :: after)))
    (lexemes : List Lexeme) : P lexemes := by
  induction hsize : lexemes.length using Nat.strongRecOn generalizing lexemes with
  | ind size ih =>
      have hshorter (others : List Lexeme) (hless : others.length < lexemes.length) : P others :=
        ih _ (hsize ▸ hless) others rfl
      cases lexemes using cutCases with
      | rest lexemes hnone => exact rest lexemes hnone
      | close prelude after hprelude => exact close prelude after hprelude
      | statement prelude after hprelude =>
          exact statement prelude after hprelude (hshorter after (by simp; omega))
      | unclosed prelude after hprelude hblock => exact unclosed prelude after hprelude hblock
      | rule prelude body after hprelude hbody =>
          exact rule prelude body after hprelude hbody (hshorter body (by simp; omega))
            (hshorter after (by simp; omega))

theorem balanced_statement_iff (h : NoStop prelude) {after : List Lexeme} :
    Balanced (prelude ++ plain ';' :: after) ↔ Balanced after := by
  unfold Balanced
  simp [openAfter?_append, openAfter?_of_noStop h, openAfter?]

theorem balanced_rule_iff (h : NoStop prelude) {body : List Lexeme} (hbody : Balanced body)
    {after : List Lexeme} :
    Balanced (prelude ++ plain '{' :: (body ++ plain '}' :: after)) ↔ Balanced after := by
  unfold Balanced
  simp [openAfter?_append, openAfter?_of_noStop h, openAfter?, hbody.openAfter?_eq]

/-- Some lexemes can be scoped exactly if their braces are balanced. -/
theorem isOk_scopedText_iff {lexemes : List Lexeme} :
    (∃ text, scopedText mark lexemes = .ok text) ↔ Balanced lexemes := by
  induction lexemes using cutInduction with
  | rest lexemes hnone =>
      exact iff_of_true ⟨_, scopedText_of_noStop hnone⟩ (openAfter?_of_noStop hnone 0)
  | close prelude after hprelude =>
      refine iff_of_false ?_ ?_
      · rintro ⟨text, htext⟩
        rw [scopedText_close hprelude] at htext
        cases htext
      · unfold Balanced
        simp [openAfter?_append, openAfter?_of_noStop hprelude, openAfter?]
  | statement prelude after hprelude ih =>
      rw [balanced_statement_iff hprelude, ← ih, scopedText_statement hprelude]
      cases scopedText mark after <;> simp [Except.map]
  | unclosed prelude after hprelude hblock =>
      refine iff_of_false ?_ ?_
      · rintro ⟨text, htext⟩
        rw [scopedText_unclosed hprelude hblock] at htext
        cases htext
      · intro hbalanced
        have hopen : openAfter? 1 after = some 0 := by
          unfold Balanced at hbalanced
          simpa [openAfter?_append, openAfter?_of_noStop hprelude, openAfter?] using hbalanced
        obtain ⟨found, hfound⟩ := exists_block?_of_openAfter? hopen
        rw [hblock] at hfound
        cases hfound
  | rule prelude body after hprelude hbody ihbody ihafter =>
      obtain ⟨rule, hrule⟩ := exists_scopedRule (ihbody.mpr hbody) (textOf prelude)
      rw [balanced_rule_iff hprelude hbody, ← ihafter, scopedText_rule hprelude hbody, hrule]
      cases scopedText mark after <;> simp [Except.map, Except.bind]

theorem Balanced.exists_scopedText {lexemes : List Lexeme} (h : Balanced lexemes) (mark : Text) :
    ∃ text, scopedText mark lexemes = .ok text :=
  isOk_scopedText_iff.mpr h

end ComponentLoader.Scope
