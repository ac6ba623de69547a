import ComponentLoader.Style.Lexeme
set_option autoImplicit false

/-!
# Stylesheets cut in two (SPEC §4.3)

A stylesheet can be cut into lexemes piece by piece, as long as no piece leaves a comment or a
string open and no comment begins where two pieces meet (`ofText_append`).  A comment can only begin
there if one piece ends in a slash and the next begins with a star, so every brace and every
semicolon outside comments and strings is a place where a stylesheet can be cut.
-/

namespace ComponentLoader.Lexeme

/-- Whether a lexeme is a comment or a string without an end. -/
def isOpen : Lexeme → Bool
  | endless _ => true
  | comment _ | quoted _ | plain _ => false

/-- No comment and no string is left open. -/
def Closed (lexemes : List Lexeme) : Prop :=
  ∀ lexeme ∈ lexemes, lexeme.isOpen = false

instance (lexemes : List Lexeme) : Decidable (Closed lexemes) :=
  inferInstanceAs (Decidable (∀ lexeme ∈ lexemes, lexeme.isOpen = false))

theorem Closed.of_cons {lexeme : Lexeme} {rest : List Lexeme} (h : Closed (lexeme :: rest)) :
    Closed rest :=
  fun other hmem => h other (List.mem_cons_of_mem _ hmem)

@[simp]
theorem textOf_map_plain (text : Text) : textOf (text.map plain) = text := by
  induction text with
  | nil => rfl
  | cons c rest ih => rw [List.map_cons, textOf_cons, ih, Lexeme.text, List.singleton_append]

/-! ## Texts that go on -/

theorem commentRest?_append {text body after : Text} (h : commentRest? text = some (body, after))
    (more : Text) : commentRest? (text ++ more) = some (body, after ++ more) := by
  fun_induction commentRest? text generalizing body with
  | case1 => cases h
  | case2 => cases h
  | case3 a b rest hend =>
      cases h
      rw [List.cons_append, List.cons_append, commentRest?, if_pos hend]
  | case4 a b rest hend ih =>
      simp only [Option.map_eq_some_iff, Prod.exists, Prod.mk.injEq] at h
      obtain ⟨inner, tail, hinner, rfl, rfl⟩ := h
      rw [List.cons_append, List.cons_append, commentRest?, if_neg hend, ← List.cons_append,
        ih hinner]
      rfl

theorem stringRest?_cons {quote c : Char} (h : c ≠ '\\') (rest : Text) :
    stringRest? quote (c :: rest) =
      if c = quote then some ([c], rest)
      else (stringRest? quote rest).map fun (body, after) => (c :: body, after) := by
  rw [stringRest?]
  · exact fun hc _ => h hc
  · exact fun _ _ hc _ => h hc

/-- What is known of a character of a string that stands for itself. -/
theorem ne_backslash {c : Char} {rest : Text} (hlast : c = '\\' → rest = [] → False)
    (hpair : ∀ d others, c = '\\' → rest = d :: others → False) : c ≠ '\\' := by
  intro hc
  cases rest with
  | nil => exact hlast hc rfl
  | cons d others => exact hpair d others hc rfl

theorem stringRest?_append {quote : Char} {text body after : Text}
    (h : stringRest? quote text = some (body, after)) (more : Text) :
    stringRest? quote (text ++ more) = some (body, after ++ more) := by
  fun_induction stringRest? quote text generalizing body with
  | case1 => cases h
  | case2 => cases h
  | case3 c rest ih =>
      simp only [Option.map_eq_some_iff, Prod.exists, Prod.mk.injEq] at h
      obtain ⟨inner, tail, hinner, rfl, rfl⟩ := h
      simp only [List.cons_append, stringRest?, ih hinner, Option.map_some]
  | case4 rest hlast hpair =>
      cases h
      rw [List.cons_append, stringRest?_cons (ne_backslash hlast hpair), if_pos rfl]
  | case5 c rest hlast hpair hquote ih =>
      simp only [Option.map_eq_some_iff, Prod.exists, Prod.mk.injEq] at h
      obtain ⟨inner, tail, hinner, rfl, rfl⟩ := h
      rw [List.cons_append, stringRest?_cons (ne_backslash hlast hpair), if_neg hquote, ih hinner]
      rfl

/-! ## Texts that end -/

/-- A comment ends where it does, whatever follows. -/
theorem commentRest?_self {text body after : Text} (h : commentRest? text = some (body, after)) :
    commentRest? body = some (body, []) := by
  fun_induction commentRest? text generalizing body with
  | case1 => cases h
  | case2 => cases h
  | case3 a b rest hend =>
      cases h
      rw [commentRest?, if_pos hend]
  | case4 a b rest hend ih =>
      simp only [Option.map_eq_some_iff, Prod.exists, Prod.mk.injEq] at h
      obtain ⟨inner, tail, hinner, rfl, rfl⟩ := h
      have hself := ih hinner
      obtain ⟨htext, -⟩ := commentRest?_eq_some hinner
      cases inner with
      | nil => cases hself
      | cons d others =>
          obtain ⟨rfl, -⟩ := List.cons.inj htext
          rw [commentRest?, if_neg hend, hself]
          rfl

/-- A string ends where it does, whatever follows. -/
theorem stringRest?_self {quote : Char} {text body after : Text}
    (h : stringRest? quote text = some (body, after)) :
    stringRest? quote body = some (body, []) := by
  fun_induction stringRest? quote text generalizing body with
  | case1 => cases h
  | case2 => cases h
  | case3 c rest ih =>
      simp only [Option.map_eq_some_iff, Prod.exists, Prod.mk.injEq] at h
      obtain ⟨inner, tail, hinner, rfl, rfl⟩ := h
      simp only [stringRest?, ih hinner, Option.map_some]
  | case4 rest hlast hpair =>
      cases h
      rw [stringRest?_cons (ne_backslash hlast hpair), if_pos rfl]
  | case5 c rest hlast hpair hquote ih =>
      simp only [Option.map_eq_some_iff, Prod.exists, Prod.mk.injEq] at h
      obtain ⟨inner, tail, hinner, rfl, rfl⟩ := h
      rw [stringRest?_cons (ne_backslash hlast hpair), if_neg hquote, ih hinner]
      rfl

/-! ## First lexemes -/

theorem first_of_plain {c : Char} {rest : Text} (hquote : isQuote c = false)
    (hslash : c = '/' → rest.head? ≠ some '*') : first c rest = (plain c, rest) := by
  unfold first
  rw [if_neg (by simp [hquote])]
  split
  · exact absurd rfl (hslash rfl)
  · rfl

theorem first_of_quote {c : Char} {rest body after : Text} (hquote : isQuote c = true)
    (hstring : stringRest? c rest = some (body, after)) :
    first c rest = (quoted (c :: body), after) := by
  unfold first
  rw [if_pos hquote, hstring]

theorem first_of_comment {rest body after : Text} (h : commentRest? rest = some (body, after)) :
    first '/' ('*' :: rest) = (comment ('/' :: '*' :: body), after) := by
  unfold first
  rw [if_neg (by decide)]
  simp only [h]

/-- The first lexeme stays what it is when the text goes on. -/
theorem first_append {c : Char} {rest : Text} (hclosed : (first c rest).1.isOpen = false)
    {more : Text} (hseam : c = '/' → rest = [] → more.head? ≠ some '*') :
    first c (rest ++ more) = ((first c rest).1, (first c rest).2 ++ more) := by
  cases hquote : isQuote c with
  | true =>
      cases hstring : stringRest? c rest with
      | none => simp [first, hquote, hstring, isOpen] at hclosed
      | some found =>
          rw [first_of_quote hquote hstring,
            first_of_quote hquote (stringRest?_append hstring more)]
  | false =>
      by_cases hstar : c = '/' ∧ rest.head? = some '*'
      · obtain ⟨rfl, hstar⟩ := hstar
        obtain ⟨inside, rfl⟩ := List.head?_eq_some_iff.mp hstar
        cases hcomment : commentRest? inside with
        | none => simp [first, hquote, hcomment, isOpen] at hclosed
        | some found =>
            rw [first_of_comment hcomment, List.cons_append,
              first_of_comment (commentRest?_append hcomment more)]
      · have hrest : c = '/' → rest.head? ≠ some '*' := fun hc hhead => hstar ⟨hc, hhead⟩
        have hmore : c = '/' → (rest ++ more).head? ≠ some '*' := by
          intro hc
          cases rest with
          | nil => exact hseam hc rfl
          | cons d others => exact hrest hc
        rw [first_of_plain hquote hrest, first_of_plain hquote hmore]

/-- What is left open takes all the rest. -/
theorem first_of_isOpen {c : Char} {rest : Text} (h : (first c rest).1.isOpen = true) :
    (first c rest).2 = [] := by
  unfold first at h ⊢
  split at h
  · rename_i hquote
    rw [if_pos hquote]
    split at h
    · cases h
    · rfl
  · rename_i hquote
    rw [if_neg hquote]
    split at h
    · split at h
      · cases h
      · rfl
    · cases h

/-- The first lexeme is that of every text that begins with it, unless a slash
gets a star behind it. -/
theorem first_replace {c : Char} {rest : Text} (hclosed : (first c rest).1.isOpen = false)
    {other : Text} (hseam : (first c rest).2.head? ≠ some '*' → other.head? ≠ some '*') :
    ∃ inside, (first c rest).1.text = c :: inside ∧
      first c (inside ++ other) = ((first c rest).1, other) := by
  cases hquote : isQuote c with
  | true =>
      cases hstring : stringRest? c rest with
      | none => simp [first, hquote, hstring, isOpen] at hclosed
      | some found =>
          obtain ⟨body, after⟩ := found
          have hother := stringRest?_append (stringRest?_self hstring) other
          rw [first_of_quote hquote hstring]
          exact ⟨body, rfl, first_of_quote hquote hother⟩
  | false =>
      by_cases hcomment : c = '/' ∧ rest.head? = some '*'
      · obtain ⟨rfl, hstar⟩ := hcomment
        obtain ⟨inside, rfl⟩ := List.head?_eq_some_iff.mp hstar
        cases hbody : commentRest? inside with
        | none => simp [first, hquote, hbody, isOpen] at hclosed
        | some found =>
            obtain ⟨body, after⟩ := found
            have hother := commentRest?_append (commentRest?_self hbody) other
            rw [first_of_comment hbody]
            exact ⟨'*' :: body, rfl, first_of_comment hother⟩
      · have hplain : c = '/' → rest.head? ≠ some '*' := fun hc hstar => hcomment ⟨hc, hstar⟩
        rw [first_of_plain hquote hplain] at hseam ⊢
        exact ⟨[], rfl, first_of_plain hquote fun hc => hseam (hplain hc)⟩

/-! ## Lexemes of texts -/

/-- Only the last lexeme can be left open. -/
theorem closed_of_getLast? {css : Text} {last : Lexeme} (hlast : (ofText css).getLast? = some last)
    (hclosed : last.isOpen = false) : Closed (ofText css) := by
  fun_induction ofText css with
  | case1 => cases hlast
  | case2 c rest ih =>
      rw [List.getLast?_cons, Option.some.injEq] at hlast
      have hfirst : (first c rest).1.isOpen = false := by
        cases hopen : (first c rest).1.isOpen with
        | false => rfl
        | true =>
            rw [first_of_isOpen hopen, ofText] at hlast
            rw [show (first c rest).1 = last from hlast, hclosed] at hopen
            cases hopen
      have hrest : Closed (ofText (first c rest).2) := by
        cases hfound : (ofText (first c rest).2).getLast? with
        | none =>
            rw [List.getLast?_eq_none_iff.mp hfound]
            exact fun lexeme hmem => absurd hmem List.not_mem_nil
        | some found =>
            rw [hfound] at hlast
            exact ih (hfound.trans (congrArg some hlast))
      exact fun lexeme hmem => (List.mem_cons.mp hmem).elim (fun heq => heq ▸ hfirst) (hrest lexeme)

/-- The lexemes of two texts are those of the one and those of the other, unless the first leaves
something open or a comment begins where they meet. -/
theorem ofText_append {front rest : Text} (hclosed : Closed (ofText front))
    (hseam : (ofText front).getLast? = some (plain '/') → rest.head? ≠ some '*') :
    ofText (front ++ rest) = ofText front ++ ofText rest := by
  fun_induction ofText front with
  | case1 => rfl
  | case2 c more ih =>
      have hfirst : first c (more ++ rest) = ((first c more).1, (first c more).2 ++ rest) := by
        refine first_append (hclosed _ List.mem_cons_self) ?_
        rintro rfl rfl
        refine hseam ?_
        rw [first_of_plain (by decide) (by simp), ofText]
        rfl
      rw [List.cons_append, ofText, hfirst, ih hclosed.of_cons, List.cons_append]
      intro hlast
      refine hseam ?_
      rw [List.getLast?_cons, hlast]
      rfl

theorem ofText_cons_plain {c : Char} (hquote : isQuote c = false) (hslash : c ≠ '/') (rest : Text) :
    ofText (c :: rest) = plain c :: ofText rest := by
  rw [ofText, first_of_plain hquote fun hc => absurd hc hslash]

theorem ofText_append_of_plain {text : Text} (h : ∀ c ∈ text, isQuote c = false ∧ c ≠ '/')
    (rest : Text) : ofText (text ++ rest) = text.map plain ++ ofText rest := by
  induction text with
  | nil => rfl
  | cons c others ih =>
      obtain ⟨hquote, hslash⟩ := h c List.mem_cons_self
      rw [List.cons_append, ofText_cons_plain hquote hslash,
        ih fun d hmem => h d (List.mem_cons_of_mem _ hmem), List.map_cons, List.cons_append]

/-- A text can be cut in front of every character that opens nothing and is no star. -/
theorem ofText_append_cons {front : Text} (hclosed : Closed (ofText front)) {c : Char}
    (hquote : isQuote c = false) (hslash : c ≠ '/') (hstar : c ≠ '*') (rest : Text) :
    ofText (front ++ c :: rest) = ofText front ++ plain c :: ofText rest := by
  rw [ofText_append hclosed, ofText_cons_plain hquote hslash]
  intro _ hhead
  exact hstar (Option.some.inj hhead)

/-! ## Parts of a stylesheet on their own -/

/-- What has another lexeme behind it leaves nothing open. -/
theorem closed_of_ofText_eq {css : Text} {front : List Lexeme} {last : Lexeme} {rest : List Lexeme}
    (h : ofText css = front ++ last :: rest) : Closed front := by
  fun_induction ofText css generalizing front with
  | case1 => simp at h
  | case2 c more ih =>
      cases front with
      | nil => exact fun lexeme hmem => absurd hmem List.not_mem_nil
      | cons lexeme front =>
          obtain ⟨rfl, hrest⟩ := List.cons.inj h
          refine fun other hmem => (List.mem_cons.mp hmem).elim (fun heq => ?_) (ih hrest other)
          cases hopen : (first c more).1.isOpen with
          | false => rw [heq, hopen]
          | true =>
              rw [first_of_isOpen hopen, ofText] at hrest
              simp at hrest

/-- The text of some lexemes at the front has these lexemes, if they leave nothing open. -/
theorem ofText_textOf_of_closed {css : Text} {front rest : List Lexeme}
    (h : ofText css = front ++ rest) (hclosed : Closed front) : ofText (textOf front) = front := by
  fun_induction ofText css generalizing front with
  | case1 =>
      obtain ⟨rfl, -⟩ := List.append_eq_nil_iff.mp h.symm
      rw [textOf_nil, ofText]
  | case2 c more ih =>
      cases front with
      | nil => rw [textOf_nil, ofText]
      | cons lexeme front =>
          rw [List.cons_append] at h
          obtain ⟨rfl, hrest⟩ := List.cons.inj h
          have hbehind : (first c more).2 = textOf front ++ textOf rest := by
            rw [← textOf_append, ← hrest, textOf_ofText]
          have hseam : (first c more).2.head? ≠ some '*' → (textOf front).head? ≠ some '*' := by
            rw [hbehind]
            cases textOf front <;> simp
          obtain ⟨inside, htext, hfirst⟩ := first_replace (hclosed _ List.mem_cons_self) hseam
          rw [textOf_cons, htext, List.cons_append, ofText, hfirst, ih hrest hclosed.of_cons]

/-- The text of some lexemes in a stylesheet has these lexemes, if another lexeme is behind them. -/
theorem ofText_textOf_of_infix {css : Text} {front part rest : List Lexeme} {last : Lexeme}
    (h : ofText css = front ++ (part ++ last :: rest)) : ofText (textOf part) = part := by
  fun_induction ofText css generalizing front with
  | case1 => simp at h
  | case2 c more ih =>
      cases front with
      | nil =>
          rw [List.nil_append, ← ofText] at h
          exact ofText_textOf_of_closed h (closed_of_ofText_eq h)
      | cons lexeme front => exact ih (List.cons.inj h).2

end ComponentLoader.Lexeme
