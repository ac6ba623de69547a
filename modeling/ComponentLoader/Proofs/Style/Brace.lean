import ComponentLoader.Proofs.Style.Rule
set_option autoImplicit false

/-!
# Counting braces (SPEC §4.3)

Whether a stylesheet can be scoped can be told by counting its braces.  The count is flat: the text
is read once, one character after the other, and all that is remembered of what was read is the
`Mode`, which says whether the next character is outside comments and strings.  There are no
lexemes in it and no blocks, while scoping looks for the end of each block and then reads the block
of a group a second time.

The braces that are counted are those among the lexemes (`filterMap_brace?_ofText`), and what
scoping finds at fault is what the count finds (`scopedText_eq_error_iff`).  So a block whose end
was found is balanced, and reading it again finds no fault.
-/

namespace ComponentLoader

namespace Scope

open Lexeme (plain textOf)

/-! ## The count -/

/-- What is known between two characters of a stylesheet from those in front. -/
inductive Mode where
  /-- outside comments and strings -/
  | outside
  /-- outside, behind a slash -/
  | slash
  | comment
  /-- in a comment, behind a star -/
  | star
  | string (quote : Char)
  /-- in a string, behind a backslash that takes the next character with it -/
  | escape (quote : Char)
  deriving DecidableEq, Repr

namespace Mode

/-- The mode behind a character that is outside comments and strings. -/
def behind (c : Char) : Mode :=
  if Lexeme.isQuote c then string c else if c = '/' then slash else outside

/-- The mode behind one more character. -/
def next : Mode → Char → Mode
  | outside, c => behind c
  | slash, c => if c = '*' then comment else behind c
  | comment, c => if c = '*' then star else comment
  | star, c => if c = '/' then outside else if c = '*' then star else comment
  | string quote, c =>
    if c = '\\' then escape quote else if c = quote then outside else string quote
  | escape quote, _ => string quote

/-- Whether a brace that is read now counts. -/
def isOutside : Mode → Bool
  | outside | slash => true
  | comment | star | string _ | escape _ => false

end Mode

/-- Whether a character is a brace. -/
def isBrace (c : Char) : Bool :=
  c = '{' || c = '}'

/-- The braces of a text that are outside comments and strings, if the
reading begins in some mode. -/
def bracesFrom (mode : Mode) : Text → List Char
  | [] => []
  | c :: rest =>
    if mode.isOutside ∧ isBrace c then c :: bracesFrom (mode.next c) rest
    else bracesFrom (mode.next c) rest

/-- The braces of a stylesheet that are outside comments and strings. -/
def braces (css : Text) : List Char :=
  bracesFrom .outside css

/-- Some prefix of a stylesheet closes more braces than it opens. -/
def ClosesTooMany (css : Text) : Prop :=
  ∃ front, front <+: css ∧ (braces front).count '{' < (braces front).count '}'

/-- A stylesheet opens more braces than it closes. -/
def LeavesOpen (css : Text) : Prop :=
  (braces css).count '}' < (braces css).count '{'

/-- The braces of a stylesheet do not fit. -/
def Unbalanced (css : Text) : Prop :=
  ClosesTooMany css ∨ LeavesOpen css

/-! ## Braces among lexemes -/

theorem bracesFrom_cons_of_inside {mode : Mode} (h : mode.isOutside = false) (c : Char)
    (rest : Text) :
    bracesFrom mode (c :: rest) = bracesFrom (mode.next c) rest := by
  rw [bracesFrom, if_neg (by simp [h])]

/-- Reading goes on behind a comment, if it ends. -/
theorem bracesFrom_comment (text : Text) :
    bracesFrom .comment text =
      (Lexeme.commentRest? text).elim [] fun found => bracesFrom .outside found.2 := by
  fun_induction Lexeme.commentRest? text with
  | case1 => rfl
  | case2 c => rw [bracesFrom_cons_of_inside rfl]; rfl
  | case3 a b rest hend =>
      obtain ⟨rfl, rfl⟩ := hend
      rw [bracesFrom_cons_of_inside rfl]
      exact bracesFrom_cons_of_inside rfl _ _
  | case4 a b rest hend ih =>
      have hnext : bracesFrom (Mode.comment.next a) (b :: rest) =
          bracesFrom .comment (b :: rest) := by
        by_cases ha : a = '*'
        · have hb : b ≠ '/' := fun hb => hend ⟨ha, hb⟩
          simp [ha, hb, Mode.next, bracesFrom, Mode.isOutside]
        · simp [ha, Mode.next]
      rw [bracesFrom_cons_of_inside rfl, hnext, ih, Option.elim_map]
      rfl

/-- Reading goes on behind a string, if it ends. -/
theorem bracesFrom_string (quote : Char) (text : Text) :
    bracesFrom (.string quote) text =
      (Lexeme.stringRest? quote text).elim [] fun found => bracesFrom .outside found.2 := by
  fun_induction Lexeme.stringRest? quote text with
  | case1 => rfl
  | case2 => rfl
  | case3 c rest ih =>
      rw [bracesFrom_cons_of_inside rfl, Option.elim_map]
      exact (bracesFrom_cons_of_inside rfl _ _).trans ih
  | case4 rest hlast hpair =>
      have hslash : quote ≠ '\\' := by
        rintro rfl
        cases rest with
        | nil => exact hlast rfl rfl
        | cons d others => exact hpair d others rfl rfl
      rw [bracesFrom_cons_of_inside rfl, Mode.next, if_neg hslash, if_pos rfl]
      rfl
  | case5 c rest hlast hpair hquote ih =>
      have hslash : c ≠ '\\' := by
        rintro rfl
        cases rest with
        | nil => exact hlast rfl rfl
        | cons d others => exact hpair d others rfl rfl
      rw [bracesFrom_cons_of_inside rfl, Mode.next, if_neg hslash, if_neg hquote, ih,
        Option.elim_map]
      rfl

/-- The brace that a lexeme is. -/
def brace? : Lexeme → Option Char
  | .plain c => if isBrace c then some c else none
  | .comment _ | .quoted _ | .endless _ => none

theorem isBrace_of_isQuote {c : Char} (h : Lexeme.isQuote c = true) : isBrace c = false := by
  simp only [Lexeme.isQuote, Bool.or_eq_true, decide_eq_true_eq] at h
  rcases h with rfl | rfl <;> rfl

/-- A slash that begins no comment changes nothing. -/
theorem bracesFrom_slash {rest : Text} (h : rest.head? ≠ some '*') :
    bracesFrom .slash rest = bracesFrom .outside rest := by
  cases rest with
  | nil => rfl
  | cons c others =>
      have hc : c ≠ '*' := fun hc => h (congrArg some hc)
      simp only [bracesFrom, Mode.isOutside, Mode.next, if_neg hc]

/-- Reading goes on behind the first lexeme. -/
theorem bracesFrom_first (c : Char) (rest : Text) :
    bracesFrom .outside (c :: rest) =
      (brace? (Lexeme.first c rest).1).toList ++ bracesFrom .outside (Lexeme.first c rest).2 := by
  cases hquote : Lexeme.isQuote c with
  | true =>
      have hstring : bracesFrom .outside (c :: rest) = bracesFrom (.string c) rest := by
        simp [bracesFrom, isBrace_of_isQuote hquote, Mode.next, Mode.behind, hquote]
      rw [hstring, bracesFrom_string]
      unfold Lexeme.first
      rw [if_pos hquote]
      cases Lexeme.stringRest? c rest <;> rfl
  | false =>
      by_cases hcomment : c = '/' ∧ rest.head? = some '*'
      · obtain ⟨rfl, hstar⟩ := hcomment
        obtain ⟨inside, rfl⟩ := List.head?_eq_some_iff.mp hstar
        rw [show bracesFrom .outside ('/' :: '*' :: inside) = bracesFrom .comment inside from rfl,
          bracesFrom_comment]
        unfold Lexeme.first
        rw [if_neg (by decide)]
        cases hrest : Lexeme.commentRest? inside <;> simp [hrest, brace?, bracesFrom]
      · have hplain : c = '/' → rest.head? ≠ some '*' := fun hc hstar => hcomment ⟨hc, hstar⟩
        have hnext : bracesFrom (Mode.behind c) rest = bracesFrom .outside rest := by
          by_cases hc : c = '/'
          · subst hc
            exact bracesFrom_slash (hplain rfl)
          · simp [Mode.behind, hquote, hc]
        rw [Lexeme.first_of_plain hquote hplain, bracesFrom, Mode.next, hnext, brace?]
        cases isBrace c <;> simp [Mode.isOutside]

/-- The braces that count are those that are lexemes. -/
theorem filterMap_brace?_ofText (css : Text) :
    (Lexeme.ofText css).filterMap brace? = braces css := by
  unfold braces
  fun_induction Lexeme.ofText css with
  | case1 => rfl
  | case2 c rest ih =>
      rw [bracesFrom_first, ← ih]
      cases h : brace? (Lexeme.first c rest).1 <;> simp [h]

/-! ## Prefixes -/

/-- The braces of the prefixes of a text are the prefixes of its braces. -/
theorem exists_bracesFrom_eq_iff {mode : Mode} {text : Text} {front : List Char} :
    (∃ before, before <+: text ∧ bracesFrom mode before = front) ↔
      front <+: bracesFrom mode text := by
  induction text generalizing mode front with
  | nil => simp [bracesFrom, eq_comm]
  | cons c rest ih =>
      constructor
      · rintro ⟨before, hbefore, rfl⟩
        rcases List.prefix_cons_iff.mp hbefore with rfl | ⟨others, rfl, hothers⟩
        · exact List.nil_prefix
        · have hrest : bracesFrom (mode.next c) others <+: bracesFrom (mode.next c) rest :=
            ih.mp ⟨others, hothers, rfl⟩
          rw [bracesFrom, bracesFrom]
          split
          · exact List.cons_prefix_cons.mpr ⟨rfl, hrest⟩
          · exact hrest
      · intro hfront
        rw [bracesFrom] at hfront
        split at hfront
        · rename_i hcounts
          rcases List.prefix_cons_iff.mp hfront with rfl | ⟨others, rfl, hothers⟩
          · exact ⟨[], List.nil_prefix, rfl⟩
          · obtain ⟨before, hbefore, rfl⟩ := ih.mpr hothers
            exact ⟨c :: before, List.cons_prefix_cons.mpr ⟨rfl, hbefore⟩,
              by rw [bracesFrom, if_pos hcounts]⟩
        · rename_i hcounts
          obtain ⟨before, hbefore, rfl⟩ := ih.mpr hfront
          exact ⟨c :: before, List.cons_prefix_cons.mpr ⟨rfl, hbefore⟩,
            by rw [bracesFrom, if_neg hcounts]⟩

theorem forall_isPrefix_cons_iff {P : List Char → Prop} {c : Char} {rest : List Char} :
    (∀ front, front <+: c :: rest → P front) ↔ P [] ∧ ∀ front, front <+: rest → P (c :: front) := by
  constructor
  · intro h
    exact ⟨h [] List.nil_prefix, fun front hfront => h _ (List.cons_prefix_cons.mpr ⟨rfl, hfront⟩)⟩
  · rintro ⟨hnil, hcons⟩ front hfront
    rcases List.prefix_cons_iff.mp hfront with rfl | ⟨others, rfl, hothers⟩
    · exact hnil
    · exact hcons others hothers

theorem brace?_eq_none {lexeme : Lexeme} (hopen : lexeme ≠ plain '{')
    (hclose : lexeme ≠ plain '}') :
    brace? lexeme = none := by
  cases lexeme with
  | plain c =>
      have hbrace : isBrace c = false := by
        simp only [ne_eq, Lexeme.plain.injEq] at hopen hclose
        simp [isBrace, hopen, hclose]
      simp [brace?, hbrace]
  | comment text => rfl
  | quoted text => rfl
  | endless text => rfl

/-- How many braces are open behind some lexemes, by the count. -/
theorem openAfter?_eq_some_iff {depth depth' : Nat} {lexemes : List Lexeme} :
    openAfter? depth lexemes = some depth' ↔
      (∀ front, front <+: lexemes.filterMap brace? → front.count '}' ≤ depth + front.count '{') ∧
        depth' + (lexemes.filterMap brace?).count '}' =
          depth + (lexemes.filterMap brace?).count '{' := by
  have hopens (others : List Char) : ('{' :: others).count '}' = others.count '}' :=
    List.count_cons_of_ne (by decide)
  have hcloses (others : List Char) : ('}' :: others).count '{' = others.count '{' :=
    List.count_cons_of_ne (by decide)
  fun_induction openAfter? depth lexemes with
  | case1 depth => simp [eq_comm]
  | case2 rest =>
      have hbrace : (plain '}' :: rest).filterMap brace? = '}' :: rest.filterMap brace? := rfl
      rw [hbrace, forall_isPrefix_cons_iff]
      refine iff_of_false (by simp) fun h => ?_
      have hfirst := h.1.2 [] List.nil_prefix
      simp at hfirst
  | case3 rest depth ih =>
      have hbrace : (plain '}' :: rest).filterMap brace? = '}' :: rest.filterMap brace? := rfl
      refine ih.trans ?_
      rw [hbrace, forall_isPrefix_cons_iff]
      simp only [List.count_nil, List.count_cons_self, hcloses, Nat.zero_le, true_and,
        Nat.add_right_comm depth 1, Nat.add_le_add_iff_right, ← Nat.add_assoc,
        Nat.add_right_cancel_iff]
  | case4 depth lexeme rest hclose ih =>
      by_cases hopen : lexeme = plain '{'
      · subst hopen
        have hbrace : (plain '{' :: rest).filterMap brace? = '{' :: rest.filterMap brace? := rfl
        refine ih.trans ?_
        rw [hbrace, forall_isPrefix_cons_iff, if_pos rfl]
        simp only [List.count_nil, List.count_cons_self, hopens, Nat.zero_le, true_and,
          Nat.add_right_comm depth 1, ← Nat.add_assoc]
      · refine ih.trans ?_
        rw [List.filterMap_cons_none (brace?_eq_none hopen hclose), if_neg hopen]

/-! ## Faults -/

/-- The fault that the count finds, by the braces that are open in the end. -/
def faultOf? : Option Nat → Option ScopeFault
  | none => some .unexpectedClose
  | some 0 => none
  | some (_ + 1) => some .unclosedOpen

/-- A brace without a block leaves itself open. -/
theorem exists_openAfter?_of_block?_eq_none {depth : Nat} {lexemes : List Lexeme}
    (h : block? depth lexemes = none) :
    ∃ more, openAfter? (depth + 1) lexemes = some (more + 1) := by
  fun_induction block? depth lexemes with
  | case1 depth => exact ⟨depth, rfl⟩
  | case2 rest => cases h
  | case3 rest depth ih => simpa [openAfter?] using ih (Option.map_eq_none_iff.mp h)
  | case4 depth lexeme rest hclose ih =>
      obtain ⟨more, hmore⟩ := ih (Option.map_eq_none_iff.mp h)
      refine ⟨more, ?_⟩
      rw [openAfter?_cons hclose, ← hmore]
      split <;> rfl

/-- Scoping refuses what the count refuses, and for the same fault. -/
theorem scopedText_eq_error_iff (mark : Text) {lexemes : List Lexeme} {fault : ScopeFault} :
    scopedText mark lexemes = .error fault ↔ faultOf? (openAfter? 0 lexemes) = some fault := by
  induction lexemes using cutInduction with
  | rest lexemes hnone =>
      rw [scopedText_of_noStop hnone, openAfter?_of_noStop hnone]
      simp [faultOf?]
  | close prelude after hprelude =>
      rw [scopedText_close hprelude]
      simp [openAfter?_append, openAfter?_of_noStop hprelude, openAfter?, faultOf?]
  | statement prelude after hprelude ih =>
      have hopen : openAfter? 0 (prelude ++ plain ';' :: after) = openAfter? 0 after := by
        simp [openAfter?_append, openAfter?_of_noStop hprelude, openAfter?]
      rw [scopedText_statement hprelude, hopen, ← ih]
      cases scopedText mark after <;> simp [Except.map]
  | unclosed prelude after hprelude hblock =>
      obtain ⟨more, hmore⟩ := exists_openAfter?_of_block?_eq_none hblock
      rw [scopedText_unclosed hprelude hblock]
      simp [openAfter?_append, openAfter?_of_noStop hprelude, openAfter?, hmore, faultOf?]
  | rule prelude body after hprelude hbody ihbody ihafter =>
      have hopen : openAfter? 0 (prelude ++ plain '{' :: (body ++ plain '}' :: after)) =
          openAfter? 0 after := by
        simp [openAfter?_append, openAfter?_of_noStop hprelude, openAfter?, hbody.openAfter?_eq]
      obtain ⟨rule, hrule⟩ := exists_scopedRule (hbody.exists_scopedText mark) (textOf prelude)
      rw [scopedText_rule hprelude hbody, hrule, hopen, ← ihafter]
      cases scopedText mark after <;> simp [Except.map, Except.bind]

/-- A block whose end was found is scoped without a fault, by its lexemes and
as a text of its own. -/
theorem exists_slots_of_block? {code : Text} {front rest body after : List Lexeme}
    (hcode : Lexeme.ofText code = front ++ plain '{' :: rest)
    (hblock : block? 0 rest = some (body, after)) :
    ∃ pieces, slotsOf body = .ok pieces ∧ slots (textOf body) = .ok pieces := by
  obtain ⟨rfl, hbody⟩ := block?_eq_some_iff.mp hblock
  rw [List.append_cons] at hcode
  have hlexemes : Lexeme.ofText (textOf body) = body := Lexeme.ofText_textOf_of_infix hcode
  unfold slots
  rw [hlexemes]
  obtain ⟨text, htext⟩ := Balanced.exists_scopedText hbody []
  unfold scopedText at htext
  cases hpieces : slotsOf body with
  | error fault =>
      rw [hpieces] at htext
      cases htext
  | ok pieces => exact ⟨pieces, rfl, rfl⟩

/-! ## Stylesheets -/

theorem closesTooMany_iff {css : Text} :
    ClosesTooMany css ↔
      ¬∀ front, front <+: braces css → front.count '}' ≤ front.count '{' := by
  unfold ClosesTooMany
  constructor
  · rintro ⟨before, hbefore, hless⟩ hall
    have hfront : braces before <+: braces css := exists_bracesFrom_eq_iff.mp ⟨before, hbefore, rfl⟩
    have hle := hall _ hfront
    omega
  · intro hnot
    obtain ⟨front, hfront, hless⟩ : ∃ front, front <+: braces css ∧
        ¬front.count '}' ≤ front.count '{' := by
      simpa only [not_forall, exists_prop] using hnot
    obtain ⟨before, hbefore, rfl⟩ := exists_bracesFrom_eq_iff.mpr hfront
    exact ⟨before, hbefore, by unfold braces; omega⟩

/-- The fault that is found among the lexemes of a stylesheet, by the braces of its text. -/
theorem faultOf?_ofText (css : Text) :
    (faultOf? (openAfter? 0 (Lexeme.ofText css)) = some .unexpectedClose ↔ ClosesTooMany css) ∧
      (faultOf? (openAfter? 0 (Lexeme.ofText css)) = some .unclosedOpen ↔
        ¬ClosesTooMany css ∧ LeavesOpen css) := by
  have hcount (depth : Nat) : openAfter? 0 (Lexeme.ofText css) = some depth ↔ _ :=
    openAfter?_eq_some_iff
  simp only [filterMap_brace?_ofText, Nat.zero_add] at hcount
  rw [closesTooMany_iff]
  unfold LeavesOpen
  cases hopen : openAfter? 0 (Lexeme.ofText css) with
  | none =>
      have hmany : ¬∀ front, front <+: braces css → front.count '}' ≤ front.count '{' := by
        intro hall
        have hwhole := hall _ List.prefix_rfl
        have hsome := (hcount ((braces css).count '{' - (braces css).count '}')).mpr
          ⟨hall, by omega⟩
        rw [hopen] at hsome
        cases hsome
      exact ⟨iff_of_true rfl hmany, iff_of_false (by simp [faultOf?]) fun h => h.1 hmany⟩
  | some depth =>
      obtain ⟨hall, heq⟩ := (hcount depth).mp hopen
      cases depth with
      | zero =>
          exact ⟨iff_of_false (by simp [faultOf?]) fun h => h hall,
            iff_of_false (by simp [faultOf?]) fun h => by omega⟩
      | succ depth =>
          exact ⟨iff_of_false (by simp [faultOf?]) fun h => h hall,
            iff_of_true rfl ⟨fun h => h hall, by omega⟩⟩

theorem markSelectors_eq_error_iff {code token : Text} {context : ScopeContext}
    {fault : ScopeFault} :
    markSelectors code token context = .error (.scope context.file fault) ↔
      faultOf? (openAfter? 0 (Lexeme.ofText code)) = some fault := by
  refine Iff.trans ?_ (scopedText_eq_error_iff (marker context.strategy token))
  show _ ↔ scope context.strategy token code = .error fault
  unfold markSelectors
  cases scope context.strategy token code <;> simp

/-- A stylesheet is refused exactly if its braces outside comments and strings are unbalanced:
for a brace that closes too many if there is one, and else for one that stays open.  No fault
is found in the block of a rule, neither where it stands nor when its text is read as a
stylesheet of its own. -/
theorem refuses_iff_unbalanced (code token : Text) (context : ScopeContext) :
    ((∃ fault, markSelectors code token context = .error (.scope context.file fault)) ↔
        Unbalanced code) ∧
      ((∃ result, markSelectors code token context = .ok result) ↔ ¬Unbalanced code) ∧
      (markSelectors code token context = .error (.scope context.file .unexpectedClose) ↔
        ClosesTooMany code) ∧
      (markSelectors code token context = .error (.scope context.file .unclosedOpen) ↔
        ¬ClosesTooMany code ∧ LeavesOpen code) ∧
      ∀ front rest body after : List Lexeme, Lexeme.ofText code = front ++ plain '{' :: rest →
        block? 0 rest = some (body, after) →
        ∃ pieces, slotsOf body = .ok pieces ∧ slots (textOf body) = .ok pieces := by
  obtain ⟨hclose, hopen⟩ := faultOf?_ofText code
  have hrefused : (∃ fault, markSelectors code token context = .error (.scope context.file fault)) ↔
      Unbalanced code := by
    simp only [markSelectors_eq_error_iff]
    constructor
    · rintro ⟨fault, hfault⟩
      cases fault with
      | unexpectedClose => exact Or.inl (hclose.mp hfault)
      | unclosedOpen => exact Or.inr (hopen.mp hfault).2
    · intro hunbalanced
      by_cases hmany : ClosesTooMany code
      · exact ⟨_, hclose.mpr hmany⟩
      · exact ⟨_, hopen.mpr ⟨hmany, hunbalanced.resolve_left hmany⟩⟩
  refine ⟨hrefused, ?_, markSelectors_eq_error_iff.trans hclose,
    markSelectors_eq_error_iff.trans hopen, fun _ _ _ _ => exists_slots_of_block?⟩
  rw [← hrefused]
  unfold markSelectors
  cases scope context.strategy token code <;> simp

/-- A group with a brace in a comment, a closing brace too many behind it, and a string without an
end that hides another one. -/
theorem refuses_brace_behind_group :
    let code : Text := "@media a\x7bp\x7b\x7d/*\x7b*/\x7d\x7d'\x7b"
    let context : ScopeContext := ⟨⟨"card.css"⟩, none, .byClass⟩
    let body := Lexeme.ofText "p\x7b\x7d/*\x7b*/"
    let after := Lexeme.ofText "\x7d'\x7b"
    Lexeme.ofText code = Lexeme.ofText "@media a" ++ plain '{' :: (body ++ plain '}' :: after) ∧
      block? 0 (body ++ plain '}' :: after) = some (body, after) ∧
      (∃ pieces, slotsOf body = .ok pieces ∧ slots (textOf body) = .ok pieces) ∧
      ClosesTooMany code ∧ ¬LeavesOpen code ∧
      markSelectors code "s1" context = .error (.scope ⟨"card.css"⟩ .unexpectedClose) := by
  intro code context body after
  have hcode : Lexeme.ofText code =
      Lexeme.ofText "@media a" ++ plain '{' :: (body ++ plain '}' :: after) := by decide +kernel
  have hblock : block? 0 (body ++ plain '}' :: after) = some (body, after) := by decide +kernel
  have hmany : ClosesTooMany code := ⟨code, List.prefix_rfl, by decide +kernel⟩
  have hopen : ¬LeavesOpen code := by
    unfold LeavesOpen
    decide +kernel
  obtain ⟨-, -, hclose, -, hread⟩ := refuses_iff_unbalanced code "s1" context
  exact ⟨hcode, hblock, hread _ _ _ _ hcode hblock, hmany, hopen, hclose.mpr hmany⟩

end Scope

end ComponentLoader
