import ComponentLoader.Text.Basic
set_option autoImplicit false

/-!
# Lines and positions (SPEC §4.4)

Three notions of a line are in use.  `splitAfterNewline` cuts after each line feed and keeps it, so
its pieces concatenate to the text.  `lines` drops the line ends, a line feed or a carriage return
with a line feed.  Positions count a lone carriage return as a line end too: `lineSpans` gives the
byte bounds of each such line, and `locate` finds the line and column of a byte.

Positions are 32-bit words, so `locate` answers nothing beyond `maxOffset`.
-/

namespace ComponentLoader

namespace Text

/-! ## Cutting into lines -/

/-- The pieces that end after each line feed, and what follows the last one unless it is empty. -/
def splitAfterNewline : Text → List Text
  | [] => []
  | [c] => [[c]]
  | c :: d :: rest =>
    if c = '\n' then [c] :: splitAfterNewline (d :: rest)
    else
      match splitAfterNewline (d :: rest) with
      | [] => [[c]]
      | first :: others => (c :: first) :: others

/-- A piece without its line end: a line feed, or a carriage return and a line feed. -/
def dropLineEnd (piece : Text) : Text :=
  match dropTail? "\n" piece with
  | none => piece
  | some line => (dropTail? "\r" line).getD line

/-- The lines of a text, without their ends. -/
def lines (text : Text) : List Text :=
  (splitAfterNewline text).map dropLineEnd

theorem flatten_splitAfterNewline (text : Text) : (splitAfterNewline text).flatten = text := by
  fun_induction splitAfterNewline text with
  | case1 => rfl
  | case2 c => rfl
  | case3 d rest ih => simp [ih]
  | case4 c d rest hc hnil ih => simp [hnil] at ih
  | case5 c d rest hc first others hcons ih =>
    rw [hcons] at ih
    simpa using ih

end Text

/-! ## Positions -/

/-- A place in a text: its line and the bytes before it on that line, both from zero. -/
structure Location where
  line : UInt32
  column : UInt32
  deriving DecidableEq, Repr, Inhabited

namespace Location

/-- A location as people count: line and column from one. -/
def text (location : Location) : Text :=
  Text.decimal (location.line + 1).toNat ++ ":" ++ Text.decimal (location.column + 1).toNat

end Location

/-- The byte bounds of one line, its end not included. -/
structure LineSpan where
  start : Nat
  stop : Nat
  deriving DecidableEq, Repr

/-- The greatest offset that a position can stand for. -/
def maxOffset : Nat := UInt32.size - 1

namespace Text

/-- The lines of the text that begins at byte `here`, the first of which began at byte `start`.  A
carriage return, a line feed, and the two in this order end a line. -/
def spansFrom (start here : Nat) : Text → List LineSpan
  | [] => [⟨start, here⟩]
  | '\r' :: '\n' :: rest => ⟨start, here⟩ :: spansFrom (here + 2) (here + 2) rest
  | '\r' :: rest => ⟨start, here⟩ :: spansFrom (here + 1) (here + 1) rest
  | '\n' :: rest => ⟨start, here⟩ :: spansFrom (here + 1) (here + 1) rest
  | c :: rest => spansFrom start (here + c.utf8Size) rest

/-- The bounds of the lines of a text, as far as positions reach. -/
def lineSpans (text : Text) : List LineSpan :=
  (spansFrom 0 0 text).takeWhile fun span => span.stop ≤ maxOffset

/-- The line that holds the byte at `offset`, the lines being counted from `line`. -/
def locateIn (offset line : Nat) : List LineSpan → Option Location
  | [] => none
  | span :: rest =>
    if span.start ≤ offset ∧ offset < span.stop then
      some ⟨.ofNat line, .ofNat (offset - span.start)⟩
    else
      locateIn offset (line + 1) rest

/-- The place of the byte at `offset`; none for the bytes of a line end and beyond the text. -/
def locate (text : Text) (offset : Nat) : Option Location :=
  locateIn offset 0 (lineSpans text)

end Text

end ComponentLoader
