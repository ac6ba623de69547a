import ComponentLoader.Settings.Basic
import ComponentLoader.Style.Fault
import ComponentLoader.Style.Lexeme
import ComponentLoader.Text.Space
set_option autoImplicit false

/-!
# Scoping stylesheets (SPEC §4.3)

Scoping binds the style rules of a stylesheet to the elements of one component, by a marker after
each selector.  Where markers go does not depend on the marker: `slots` cuts a stylesheet into texts
and slots, and `scope` puts the marker into the slots.

Style rules count at the top and inside the at-rules that only group rules.  The bodies of other
at-rules, the declarations and the statements stay as they are.

The depth of brackets in a prelude is an unbounded integer; a prelude of 2^31 brackets, where a
counter of 32 bits would overflow, is left out.
-/

namespace ComponentLoader

/-- A piece of a stylesheet in which the places of markers are known. -/
inductive StylePiece where
  /-- a text that stays as it is -/
  | copied (text : Text)
  /-- a place for the marker -/
  | slot
  deriving DecidableEq, Repr, Inhabited

namespace StylePiece

/-- A piece with the marker filled in. -/
def fill (marker : Text) : StylePiece → Text
  | copied text => text
  | slot => marker

/-- Some pieces with the marker filled in. -/
def fillAll (marker : Text) (pieces : List StylePiece) : Text :=
  pieces.flatMap (fill marker)

@[simp]
theorem fillAll_nil (marker : Text) : fillAll marker [] = [] := rfl

@[simp]
theorem fillAll_copied (marker text : Text) (rest : List StylePiece) :
    fillAll marker (copied text :: rest) = text ++ fillAll marker rest := rfl

@[simp]
theorem fillAll_slot (marker : Text) (rest : List StylePiece) :
    fillAll marker (slot :: rest) = marker ++ fillAll marker rest := rfl

@[simp]
theorem fillAll_append (marker : Text) (a b : List StylePiece) :
    fillAll marker (a ++ b) = fillAll marker a ++ fillAll marker b := by
  simp [fillAll]

end StylePiece

namespace Scope

/-! ## Selectors -/

/-- The pieces between the commas of a selector list, commas inside brackets apart.  `depth` counts
the brackets that are open. -/
def splitCommas (depth : Int) : Text → List Text
  | [] => [[]]
  | c :: rest =>
    if c = ',' ∧ depth = 0 then [] :: splitCommas depth rest
    else
      let depth :=
        if c = '(' ∨ c = '[' then depth + 1
        else if c = ')' ∨ c = ']' then depth - 1
        else depth
      match splitCommas depth rest with
      | [] => [[c]]
      | first :: others => (c :: first) :: others

/-- A selector with its slot: before the first pseudo-element, or else at the end. -/
def selectorPieces (selector : Text) : List StylePiece :=
  match Text.seek "::" selector with
  | some (before, found) => [.copied before, .slot, .copied found]
  | none => [.copied selector, .slot]

/-- The selectors of a list, a comma and a blank between neighbours. -/
def joinSelectors : List Text → List StylePiece
  | [] => []
  | [selector] => selectorPieces (Text.trim selector)
  | selector :: rest => selectorPieces (Text.trim selector) ++ .copied ", " :: joinSelectors rest

/-- The prelude of a style rule, without the blanks in front of it. -/
def selectorListPieces (prelude : Text) : List StylePiece :=
  joinSelectors (splitCommas 0 (Text.trimEnd prelude)) ++ [.copied (Text.trailingSpace prelude)]

/-! ## Rules -/

/-- The names of the at-rules that only group rules: those of SPEC §4.3, and `document`. -/
def groupRules : List Text := ["media", "supports", "layer", "container", "document"]

/-- Whether the text after `@` begins with the name of a grouping at-rule, in any case. -/
def isGroupRule (text : Text) : Bool :=
  groupRules.contains (Text.asciiLower (text.takeWhile fun c => c.isAlphanum || c = '-'))

/-- Whether a lexeme ends the prelude of a rule or a statement. -/
def isStop (lexeme : Lexeme) : Bool :=
  lexeme = .plain '{' || lexeme = .plain ';' || lexeme = .plain '}'

/-- The lexemes up to the closing brace that belongs to an opening one, and the lexemes after it.
`depth` counts the braces that were opened since. -/
def block? (depth : Nat) : List Lexeme → Option (List Lexeme × List Lexeme)
  | [] => none
  | lexeme :: rest =>
    if lexeme = .plain '}' then
      match depth with
      | 0 => some ([], rest)
      | depth + 1 => (block? depth rest).map fun (body, after) => (lexeme :: body, after)
    else
      (block? (if lexeme = .plain '{' then depth + 1 else depth) rest).map fun (body, after) =>
        (lexeme :: body, after)

theorem block?_eq_some {depth : Nat} {lexemes body after : List Lexeme}
    (h : block? depth lexemes = some (body, after)) : lexemes = body ++ .plain '}' :: after := by
  fun_induction block? depth lexemes generalizing body with
  | case1 => cases h
  | case2 rest =>
    cases h
    rfl
  | case3 rest depth ih =>
    simp only [Option.map_eq_some_iff, Prod.exists, Prod.mk.injEq] at h
    obtain ⟨inner, tail, hinner, rfl, rfl⟩ := h
    rw [ih hinner, List.cons_append]
  | case4 depth lexeme rest hclose ih =>
    simp only [Option.map_eq_some_iff, Prod.exists, Prod.mk.injEq] at h
    obtain ⟨inner, tail, hinner, rfl, rfl⟩ := h
    rw [ih hinner, List.cons_append]

/-- The lexemes before the first one that ends a prelude. -/
def preludeOf (lexemes : List Lexeme) : List Lexeme :=
  lexemes.takeWhile fun lexeme => !isStop lexeme

/-- The lexemes from the first one on that ends a prelude. -/
def fromStop (lexemes : List Lexeme) : List Lexeme :=
  lexemes.dropWhile fun lexeme => !isStop lexeme

theorem length_fromStop_le (lexemes : List Lexeme) : (fromStop lexemes).length ≤ lexemes.length :=
  (List.dropWhile_sublist _).length_le

/-- The texts and slots of a list of rules. -/
def slotsOf (lexemes : List Lexeme) : Except ScopeFault (List StylePiece) :=
  match _hstop : fromStop lexemes with
  | [] => .ok [.copied (Lexeme.textOf lexemes)]
  | stop :: rest =>
    let prelude := Lexeme.textOf (preludeOf lexemes)
    if stop = .plain '}' then .error .unexpectedClose
    else if stop = .plain ';' then do
      let others ← slotsOf rest
      return .copied (prelude ++ [';']) :: others
    else
      match _hblock : block? 0 rest with
      | none => .error .unclosedOpen
      | some (body, after) => do
        let head := Text.leadingSpace prelude
        let trimmed := Text.trimStart prelude
        let rule ←
          match trimmed with
          | '@' :: name =>
            if isGroupRule name then do
              let inner ← slotsOf body
              pure (.copied (trimmed ++ ['{']) :: inner)
            else pure [.copied (trimmed ++ ['{']), .copied (Lexeme.textOf body)]
          | _ => pure (selectorListPieces trimmed ++ [.copied ('{' :: Lexeme.textOf body)])
        let others ← slotsOf after
        return .copied head :: rule ++ .copied ['}'] :: others
termination_by lexemes.length
decreasing_by
  · have hle := length_fromStop_le lexemes
    rw [_hstop, List.length_cons] at hle
    omega
  · have hle := length_fromStop_le lexemes
    have hlength := congrArg List.length (block?_eq_some _hblock)
    rw [_hstop, List.length_cons] at hle
    simp only [List.length_append, List.length_cons] at hlength
    omega
  · have hle := length_fromStop_le lexemes
    have hlength := congrArg List.length (block?_eq_some _hblock)
    rw [_hstop, List.length_cons] at hle
    simp only [List.length_append, List.length_cons] at hlength
    omega

/-- The texts and slots of a stylesheet. -/
def slots (css : Text) : Except ScopeFault (List StylePiece) :=
  slotsOf (Lexeme.ofText css)

/-- What a scope token looks like after a selector. -/
def marker (strategy : ScopeStrategy) (token : Text) : Text :=
  match strategy with
  | .byClass => '.' :: token
  | .byAttribute => "[data-" ++ token ++ "]"

/-- The stylesheet bound to the elements of a component. -/
def scope (strategy : ScopeStrategy) (token css : Text) : Except ScopeFault Text :=
  (slots css).map (StylePiece.fillAll (marker strategy token))

end Scope

/-! ## Scopers -/

/-- What a scoper is told beside the stylesheet and the token. -/
structure ScopeContext where
  file : FilePath
  /-- the source map of the stylesheet, if it was preprocessed with one -/
  sourceMap : Option Text
  strategy : ScopeStrategy
  deriving DecidableEq, Repr, Inhabited

/-- A scoped stylesheet; a scoper that moves code about gives a new source map. -/
structure Scoped where
  code : Text
  sourceMap : Option Text := none
  deriving DecidableEq, Repr, Inhabited

/-- A way to bind a stylesheet to a component, by its code and a scope token. -/
abbrev Scoper : Type :=
  (code token : Text) → ScopeContext → Except StyleError Scoped

/-- The scoper that marks selectors. -/
def markSelectors : Scoper := fun code token context =>
  match Scope.scope context.strategy token code with
  | .ok code => .ok { code := code }
  | .error fault => .error (.scope context.file fault)

end ComponentLoader
