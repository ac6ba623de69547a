import ComponentLoader.Diagnostic.Render
import ComponentLoader.Proofs.Text.Row
set_option autoImplicit false

/-!
# Which line a diagnostic quotes (SPEC §7.2)

A rendered diagnostic has the number of the line that was located, but the text under this number
is one of `Text.lines`, which no carriage return ends by itself.  In a source without such carriage
returns both are of the same line (`render_of_loneReturns_eq_zero`).  Behind one, the quoted line
is another one, further on, and it need not exist at all; `render_quotes_iff` says when the right
text is quoted nevertheless.
-/

namespace ComponentLoader.Diagnostic

/-- A rendered diagnostic in which a line of the source stands under its number, with a caret
below a column of it. -/
def renderedWith (color : Bool) (diagnostic : Diagnostic) (number : Nat) (line : Text)
    (column : Nat) : Text :=
  let digits := Text.decimal number
  let margin := List.replicate digits.length ' '
  head color diagnostic ++ place diagnostic ++
    (margin ++ " |\n" ++ digits ++ " | " ++ line ++ "\n" ++
      margin ++ " | " ++ List.replicate column ' ' ++ "^\n") ++ noteLines diagnostic

theorem excerpt_ne_nil (location : Location) (line : Text) : excerpt location line ≠ [] := by
  simp [excerpt]

theorem excerpt_inj {location : Location} {line line' : Text}
    (h : excerpt location line = excerpt location line') : line = line' := by
  simpa [excerpt] using h

/-- With the number of its location, a line is quoted exactly if it is the line with that number. -/
theorem render_eq_renderedWith_iff {diagnostic : Diagnostic} {location : Location}
    (hlocation : diagnostic.location = some location)
    (hline : location.line.toNat + 1 < UInt32.size) (color : Bool) (source line : Text) :
    render color diagnostic (some source) =
        renderedWith color diagnostic (location.line.toNat + 1) line location.column.toNat ↔
      (Text.lines source)[location.line.toNat]? = some line := by
  have hexcerpt :
      renderedWith color diagnostic (location.line.toNat + 1) line location.column.toNat =
      head color diagnostic ++ place diagnostic ++ excerpt location line ++
        noteLines diagnostic := by
    rw [renderedWith, excerpt, Text.toNat_add_one hline]
  unfold render quoted
  rw [hexcerpt, hlocation]
  simp only [List.append_cancel_right_eq, List.append_cancel_left_eq]
  cases (Text.lines source)[location.line.toNat]? with
  | none => exact iff_of_false (fun h => excerpt_ne_nil location line h.symm) (fun h => nomatch h)
  | some found =>
      refine ⟨fun h => congrArg some (excerpt_inj h), fun h => ?_⟩
      rw [Option.some.inj h]

/-- The line with the number of a row is the row under what stands above it and ends it. -/
theorem quotes_iff {source before line after : Text} {number : Nat}
    (hrow : Text.IsRow source number before line after) (hne : line ≠ []) :
    (Text.lines source)[number]? = some line ↔
      (Text.loneReturns before = 0 ∧ ¬Text.BeginsLone after) ∨
        (0 < Text.loneReturns before ∧
          (Text.lines (line ++ after))[Text.loneReturns before]? = some line) := by
  obtain ⟨above, habove, rfl⟩ := hrow.rows_eq
  have hlines := Text.getElem?_lines_append habove (line ++ after) 0
  rw [Nat.add_zero, Nat.add_zero, ← hrow.text_eq] at hlines
  rw [hlines]
  rcases Nat.eq_zero_or_pos (Text.loneReturns before) with hzero | hpos
  · rw [hzero, Text.getElem?_lines_zero_iff hne hrow.no_end hrow.ended]
    simp
  · simp [hpos, Nat.ne_of_gt hpos]

/-- What is located is in a line with a number that is no last word, and which line is quoted for it
is a question of the source alone. -/
theorem exists_line_of_locate {source : Text} (hsize : Text.byteSize source < UInt32.size)
    {offset : Nat} {location : Location} (hlocate : source.locate offset = some location) :
    ∃ before line after, Text.IsLineAt source location.line.toNat before line after ∧
      Text.byteSize before ≤ offset ∧ offset < Text.byteSize (before ++ line) ∧
      Text.IsRow source location.line.toNat before line after ∧ line ≠ [] ∧
      ∀ (color : Bool) (diagnostic : Diagnostic), diagnostic.location = some location →
        (render color diagnostic (some source) =
            renderedWith color diagnostic (location.line.toNat + 1) line location.column.toNat ↔
          (Text.lines source)[location.line.toNat]? = some line) := by
  obtain ⟨-, -, hlineLt, -⟩ := Text.succ_lt_of_locate hsize hlocate
  obtain ⟨before, line, after, hline, hstart, hstop, hrow⟩ :=
    Text.exists_isLineAt_of_locate hsize hlocate
  have hne : line ≠ [] := by
    rintro rfl
    rw [List.append_nil] at hstop
    omega
  exact ⟨before, line, after, hline, hstart, hstop, hrow, hne, fun color diagnostic hlocation =>
    render_eq_renderedWith_iff hlocation hlineLt color source line⟩

/-- A source without lone carriage returns is always quoted right: a diagnostic that is rendered at
a place that was located has the line of that place under its number. -/
theorem render_of_loneReturns_eq_zero {source : Text}
    (hsize : Text.byteSize source < UInt32.size) (hlone : Text.loneReturns source = 0)
    {offset : Nat} {location : Location} (hlocate : source.locate offset = some location) :
    ∃ before line after, Text.IsLineAt source location.line.toNat before line after ∧
      Text.byteSize before ≤ offset ∧ offset < Text.byteSize (before ++ line) ∧
      ∀ (color : Bool) (diagnostic : Diagnostic), diagnostic.location = some location →
        render color diagnostic (some source) =
          renderedWith color diagnostic (location.line.toNat + 1) line location.column.toNat := by
  obtain ⟨before, line, after, hline, hstart, hstop, hrow, hne, hrender⟩ :=
    exists_line_of_locate hsize hlocate
  refine ⟨before, line, after, hline, hstart, hstop, fun color diagnostic hlocation => ?_⟩
  rw [hrender color diagnostic hlocation, quotes_iff hrow hne]
  exact Or.inl (hrow.of_loneReturns_eq_zero hne hlone)

/-- What is located in a source is in one of its lines, as positions count them.  A diagnostic
that is rendered there quotes this line under its number exactly if no lone carriage return
stands above it and none ends it, or if some stand above it and the line that is as many lines
below has the same text. -/
theorem render_quotes_iff {source : Text} (hsize : Text.byteSize source < UInt32.size)
    {offset : Nat} {location : Location} (hlocate : source.locate offset = some location) :
    ∃ before line after, Text.IsLineAt source location.line.toNat before line after ∧
      Text.byteSize before ≤ offset ∧ offset < Text.byteSize (before ++ line) ∧
      ∀ (color : Bool) (diagnostic : Diagnostic), diagnostic.location = some location →
        (render color diagnostic (some source) =
            renderedWith color diagnostic (location.line.toNat + 1) line location.column.toNat ↔
          (Text.loneReturns before = 0 ∧ ¬Text.BeginsLone after) ∨
            (0 < Text.loneReturns before ∧
              (Text.lines (line ++ after))[Text.loneReturns before]? = some line)) := by
  obtain ⟨before, line, after, hline, hstart, hstop, hrow, hne, hrender⟩ :=
    exists_line_of_locate hsize hlocate
  refine ⟨before, line, after, hline, hstart, hstop, fun color diagnostic hlocation => ?_⟩
  rw [hrender color diagnostic hlocation, quotes_iff hrow hne]

/-- Behind a lone carriage return the right line is quoted by chance only. -/
theorem render_quotes_same_text :
    let source : Text := "ä\rb\r\nb"
    Text.byteSize source < UInt32.size ∧ source.locate 3 = some ⟨1, 0⟩ ∧
      ∃ before line after, Text.IsLineAt source (1 : UInt32).toNat before line after ∧
        Text.byteSize before ≤ 3 ∧ 3 < Text.byteSize (before ++ line) ∧
        ∀ (color : Bool) (diagnostic : Diagnostic), diagnostic.location = some ⟨1, 0⟩ →
          (render color diagnostic (some source) =
              renderedWith color diagnostic ((1 : UInt32).toNat + 1) line (0 : UInt32).toNat ↔
            (Text.loneReturns before = 0 ∧ ¬Text.BeginsLone after) ∨
              (0 < Text.loneReturns before ∧
                (Text.lines (line ++ after))[Text.loneReturns before]? = some line)) := by
  intro source
  have hsize : Text.byteSize source < UInt32.size := by decide
  have hlocate : source.locate 3 = some ⟨1, 0⟩ := by decide
  exact ⟨hsize, hlocate, render_quotes_iff hsize hlocate⟩

/-- Under the number of the line that was located stands the line below it. -/
theorem render_quotes_line_below :
    let source : Text := "a\rb\nc"
    let diagnostic : Diagnostic :=
      { severity := .warning, code := .templateWarning, message := "m", location := some ⟨1, 0⟩ }
    source.locate 2 = some ⟨1, 0⟩ ∧ Text.IsLineAt source 1 "a\r" "b" "\nc" ∧
      render false diagnostic (some source) ≠ renderedWith false diagnostic 2 "b" 0 ∧
      render false diagnostic (some source) = renderedWith false diagnostic 2 "c" 0 := by
  intro source diagnostic
  have hlocate : source.locate 2 = some ⟨1, 0⟩ := by decide
  exact ⟨hlocate, ⟨by decide, by decide⟩, by decide, by decide⟩

end ComponentLoader.Diagnostic
