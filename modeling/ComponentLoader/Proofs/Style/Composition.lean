import ComponentLoader.Proofs.Style.Rule
set_option autoImplicit false

/-!
# Scoping by parts (SPEC §4.3)

A stylesheet is scoped part by part: what stands behind a rule or a statement is scoped as if
it stood alone, and the block of a rule that groups others is scoped as if it were a stylesheet
of its own.  Both rest on the lexemes being those of the parts, so a part must not leave a
comment or a string open.  Behind a rule or a statement that needs no hypothesis, since nothing
that is left open ends there.
-/

namespace ComponentLoader.Scope

open Lexeme (plain textOf Closed)

variable {mark : Text}

/-! ## One stylesheet behind another -/

/-- A sequence of statements and rules, with nothing behind the last one. -/
inductive Constructs : List Lexeme → Prop where
  | nil : Constructs []
  | statement {prelude after : List Lexeme} (hprelude : NoStop prelude)
      (hafter : Constructs after) :
      Constructs (prelude ++ plain ';' :: after)
  | rule {prelude body after : List Lexeme} (hprelude : NoStop prelude) (hbody : Balanced body)
      (hafter : Constructs after) :
      Constructs (prelude ++ plain '{' :: (body ++ plain '}' :: after))

theorem Constructs.eq_nil_or_exists_last {lexemes : List Lexeme} (h : Constructs lexemes) :
    lexemes = [] ∨
      ∃ front last, (last = plain ';' ∨ last = plain '}') ∧ lexemes = front ++ [last] := by
  induction h with
  | nil => exact Or.inl rfl
  | @statement prelude after _ _ ih =>
      rcases ih with rfl | ⟨front, last, hlast, rfl⟩
      · exact Or.inr ⟨prelude, _, Or.inl rfl, rfl⟩
      · exact Or.inr ⟨prelude ++ plain ';' :: front, last, hlast, by simp⟩
  | @rule prelude body after _ _ _ ih =>
      rcases ih with rfl | ⟨front, last, hlast, rfl⟩
      · exact Or.inr ⟨prelude ++ plain '{' :: body, _, Or.inr rfl, by simp⟩
      · exact Or.inr ⟨prelude ++ plain '{' :: (body ++ plain '}' :: front), last, hlast, by simp⟩

/-- The lexemes behind statements and rules are those of the text behind them. -/
theorem Constructs.ofText_append {front : Text} (h : Constructs (Lexeme.ofText front))
    (rest : Text) :
    Lexeme.ofText (front ++ rest) = Lexeme.ofText front ++ Lexeme.ofText rest := by
  rcases h.eq_nil_or_exists_last with hnil | ⟨before, last, hlast, heq⟩
  · refine Lexeme.ofText_append ?_ ?_ <;> simp [hnil, Closed]
  · have hend : (Lexeme.ofText front).getLast? = some last := by rw [heq, List.getLast?_concat]
    have hopen : last.isOpen = false := by rcases hlast with rfl | rfl <;> rfl
    refine Lexeme.ofText_append (Lexeme.closed_of_getLast? hend hopen) fun hslash => ?_
    rw [hend] at hslash
    rcases hlast with rfl | rfl <;> cases hslash

/-- The braces of statements and rules are balanced. -/
theorem Constructs.balanced_append_iff {front : List Lexeme} (h : Constructs front)
    (rest : List Lexeme) : Balanced (front ++ rest) ↔ Balanced rest := by
  induction h with
  | nil => exact Iff.rfl
  | @statement prelude after hprelude _ ih =>
      rw [List.append_assoc, List.cons_append, balanced_statement_iff hprelude, ih]
  | @rule prelude body after hprelude hbody _ ih =>
      rw [List.append_assoc, List.cons_append, List.append_assoc, List.cons_append,
        balanced_rule_iff hprelude hbody, ih]

/-- What follows statements and rules is scoped on its own. -/
theorem scopedText_append (mark : Text) {front : List Lexeme} (h : Constructs front)
    (rest : List Lexeme) :
    scopedText mark (front ++ rest) =
      (scopedText mark front).bind fun text =>
        (scopedText mark rest).map fun others => text ++ others := by
  induction h with
  | nil =>
      rw [scopedText_nil, List.nil_append]
      cases scopedText mark rest <;> rfl
  | @statement prelude after hprelude _ ih =>
      rw [List.append_assoc, List.cons_append, scopedText_statement hprelude, ih,
        scopedText_statement hprelude]
      cases scopedText mark after <;> cases scopedText mark rest <;> simp [Except.map, Except.bind]
  | @rule prelude body after hprelude hbody _ ih =>
      rw [List.append_assoc, List.cons_append, List.append_assoc, List.cons_append,
        scopedText_rule hprelude hbody, ih, scopedText_rule hprelude hbody]
      cases scopedRule mark (textOf prelude) body <;> cases scopedText mark after <;>
        cases scopedText mark rest <;> simp [Except.map, Except.bind]

/-! ## One stylesheet in a rule -/

/-- Whether a character can be in the name of an at-rule. -/
def isAtNameChar (c : Char) : Bool :=
  c.isAlphanum || c = '-'

/-- An at-rule with a block: its name, what stands behind the name, and the text of the block. -/
def atRule (name query block : Text) : Text :=
  '@' :: (name ++ query) ++ '{' :: (block ++ ['}'])

/-- The name of an at-rule are the letters, digits and hyphens at its front. -/
theorem isGroupRule_append {name query : Text} (hname : ∀ c ∈ name, isAtNameChar c = true)
    (hquery : ∀ c ∈ query.head?, isAtNameChar c = false) :
    isGroupRule (name ++ query) = groupRules.contains (Text.asciiLower name) := by
  have htake : (name ++ query).takeWhile isAtNameChar = name := by
    rw [List.takeWhile_append_of_pos hname]
    cases query with
    | nil => simp
    | cons c rest => simp [hquery c rfl]
  unfold isGroupRule
  rw [show (name ++ query).takeWhile (fun c => c.isAlphanum || c = '-') = name from htake]

/-- Neither the mark of an at-rule nor a character of its name opens or ends anything. -/
theorem ordinary_of_mem_atName {c : Char} {name : Text} (hname : ∀ c ∈ name, isAtNameChar c = true)
    (hmem : c ∈ '@' :: name) :
    Lexeme.isQuote c = false ∧ c ≠ '/' ∧ isStop (plain c) = false := by
  have hother {d : Char} (h : isAtNameChar d = false ∧ d ≠ '@') : c ≠ d := by
    rintro rfl
    rcases List.mem_cons.mp hmem with heq | hmem
    · exact h.2 heq
    · rw [hname c hmem] at h
      cases h.1
  have hquotes := And.intro (hother (d := '"') (by decide)) (hother (d := '\'') (by decide))
  have hbraces := And.intro (hother (d := '{') (by decide)) (hother (d := '}') (by decide))
  have hend := hother (d := ';') (by decide)
  exact ⟨by simp [Lexeme.isQuote, hquotes], hother (by decide), by simp [isStop, hbraces, hend]⟩

theorem ofText_atRule {name query block : Text} (hname : ∀ c ∈ name, isAtNameChar c = true)
    (hquery : Closed (Lexeme.ofText query)) (hblock : Closed (Lexeme.ofText block)) :
    Lexeme.ofText (atRule name query block) =
      (('@' :: name).map plain ++ Lexeme.ofText query) ++
        plain '{' :: (Lexeme.ofText block ++ plain '}' :: []) := by
  have hfront : ∀ c ∈ '@' :: name, Lexeme.isQuote c = false ∧ c ≠ '/' := fun c hmem =>
    ⟨(ordinary_of_mem_atName hname hmem).1, (ordinary_of_mem_atName hname hmem).2.1⟩
  have htext : atRule name query block =
      ('@' :: name) ++ (query ++ '{' :: (block ++ '}' :: [])) := by
    simp [atRule]
  rw [htext, Lexeme.ofText_append_of_plain hfront,
    Lexeme.ofText_append_cons hquery (by decide) (by decide) (by decide),
    Lexeme.ofText_append_cons hblock (by decide) (by decide) (by decide), List.append_assoc,
    Lexeme.ofText]

/-- The block of a rule that groups others is scoped as a stylesheet of its own, and the block of
any other at-rule stays as it is. -/
theorem scopedText_atRule {name query block inner : Text}
    (hname : ∀ c ∈ name, isAtNameChar c = true)
    (hhead : ∀ c ∈ query.head?, isAtNameChar c = false) (hstop : NoStop (Lexeme.ofText query))
    (hquery : Closed (Lexeme.ofText query)) (hblock : Closed (Lexeme.ofText block))
    (hinner : scopedText mark (Lexeme.ofText block) = .ok inner) :
    scopedText mark (Lexeme.ofText (atRule name query block)) =
      .ok (atRule name query
        (if Text.asciiLower name ∈ groupRules then inner else block)) := by
  have hprelude : NoStop (('@' :: name).map plain ++ Lexeme.ofText query) := by
    refine noStop_append_iff.mpr ⟨fun lexeme hmem => ?_, hstop⟩
    obtain ⟨c, hc, rfl⟩ := List.mem_map.mp hmem
    exact (ordinary_of_mem_atName hname hc).2.2
  have htext : textOf (('@' :: name).map plain ++ Lexeme.ofText query) =
      '@' :: (name ++ query) := by
    rw [Lexeme.textOf_append, Lexeme.textOf_map_plain, Lexeme.textOf_ofText, List.cons_append]
  have htrim : Text.trimStart ('@' :: (name ++ query)) = '@' :: (name ++ query) := rfl
  have hbalanced : Balanced (Lexeme.ofText block) := isOk_scopedText_iff.mp ⟨inner, hinner⟩
  have hgroup := isGroupRule_append hname hhead
  rw [ofText_atRule hname hquery hblock, scopedText_rule hprelude hbalanced, htext]
  by_cases hmem : Text.asciiLower name ∈ groupRules
  · rw [scopedRule_of_group htrim (by simpa [hgroup] using hmem), hinner, if_pos hmem,
      scopedText_nil]
    simp [Except.map, Except.bind, atRule]
  · rw [scopedRule_of_other htrim (by simpa [hgroup] using hmem), if_neg hmem,
      scopedText_nil, show textOf (Lexeme.ofText block) = block from Lexeme.textOf_ofText block]
    simp [Except.map, Except.bind, atRule]

/-! ## Stylesheets -/

/-- Scoping by parts.  Behind statements and rules a text is scoped as it is alone, or refused for
the same fault.  The block of an at-rule is scoped as it is alone if the name of the rule is one of
those that group rules, in letters of any case, and is left as it is otherwise. -/
theorem scope_by_parts (strategy : ScopeStrategy) (token : Text) :
    (∀ first second out : Text, scope strategy token first = .ok out →
      Constructs (Lexeme.ofText first) →
      scope strategy token (first ++ second) =
        (scope strategy token second).map fun others => out ++ others) ∧
    ∀ name query block out : Text, (∀ c ∈ name, isAtNameChar c = true) →
      (∀ c ∈ query.head?, isAtNameChar c = false) →
      NoStop (Lexeme.ofText query) → Closed (Lexeme.ofText query) →
      scope strategy token block = .ok out → Closed (Lexeme.ofText block) →
      scope strategy token (atRule name query block) =
        .ok (atRule name query
          (if Text.asciiLower name ∈
              (["media", "supports", "layer", "container", "document"] : List Text)
            then out else block)) := by
  refine ⟨?_, ?_⟩
  · intro first second out hfirst hconstructs
    have htexts := scopedText_append (marker strategy token) hconstructs (Lexeme.ofText second)
    rw [show scopedText _ (Lexeme.ofText first) = .ok out from hfirst,
      ← hconstructs.ofText_append] at htexts
    exact htexts
  · intro name query block out hname hhead hstop hquery hout hblock
    exact scopedText_atRule hname hhead hstop hquery hblock hout

/-- A rule with another behind it or a brace too many, in a group whose name is in
capitals, and in a page rule. -/
theorem scope_by_parts_of_rule :
    let block : Text := "p\x7bx:1\x7d"
    let out : Text := "p.s1\x7bx:1\x7d"
    let query : Text := " (width: /*\x7b*/ 1px)"
    scope .byClass "s1" block = .ok out ∧ Constructs (Lexeme.ofText block) ∧
      Closed (Lexeme.ofText block) ∧ NoStop (Lexeme.ofText query) ∧ Closed (Lexeme.ofText query) ∧
      scope .byClass "s1" (block ++ ("a,b\x7b\x7d" : Text)) =
        .ok (out ++ ("a.s1, b.s1\x7b\x7d" : Text)) ∧
      scope .byClass "s1" (block ++ ("\x7d" : Text)) = .error .unexpectedClose ∧
      scope .byClass "s1" (atRule "MEDIA" query block) = .ok (atRule "MEDIA" query out) ∧
      scope .byClass "s1" (atRule "page" query block) = .ok (atRule "page" query block) := by
  intro block out query
  have hout : scope .byClass "s1" block = .ok out := by decide +kernel
  have hconstructs : Constructs (Lexeme.ofText block) := by
    have hlexemes : Lexeme.ofText block =
        [plain 'p'] ++ plain '{' :: ([plain 'x', plain ':', plain '1'] ++ plain '}' :: []) := by
      decide +kernel
    rw [hlexemes]
    exact .rule (by decide) (by decide) .nil
  have hblock : Closed (Lexeme.ofText block) := by decide +kernel
  have hstop : NoStop (Lexeme.ofText query) := by decide +kernel
  have hquery : Closed (Lexeme.ofText query) := by decide +kernel
  have hhead : ∀ c ∈ query.head?, isAtNameChar c = false := by
    rintro c ⟨⟩
    decide
  obtain ⟨hbehind, hinside⟩ := scope_by_parts .byClass "s1"
  refine ⟨hout, hconstructs, hblock, hstop, hquery, ?_, ?_, ?_, ?_⟩
  · rw [hbehind block _ out hout hconstructs,
      show scope .byClass "s1" "a,b\x7b\x7d" = .ok ("a.s1, b.s1\x7b\x7d" : Text) by decide +kernel]
    rfl
  · rw [hbehind block _ out hout hconstructs,
      show scope .byClass "s1" "\x7d" = .error .unexpectedClose by decide +kernel]
    rfl
  · exact hinside "MEDIA" query block out (List.all_eq_true.mp rfl) hhead hstop hquery hout hblock
  · exact hinside "page" query block out (List.all_eq_true.mp rfl) hhead hstop hquery hout hblock

end ComponentLoader.Scope
