import RegisterLiveness.Text.Bytes

/-!
# Text in aligned columns

`tabulate padding text` lays out text whose cells are ended by tabs: a horizontal tab `\t` or a
vertical tab `\v` ends a cell, a newline `\n` or a form feed `\f` ends a cell and its line. Every
cell but the last of a line belongs to a column; the last one is free text.

Within a run of consecutive lines that all have a cell in column `j`, column `j` is as wide as
its widest cell plus `padding`, and every cell of the column is filled with spaces to that width;
the runs of column `j + 1` are taken within those of column `j`. Widths count characters.

The byte `0xFF`, which no UTF-8 text holds, brackets escaped text: between two of them tabs and
line breaks are plain text, and the width of the cell does not count the two brackets. An escape
still open at the end of the text is closed there, and the two brackets are taken off the width
all the same.

The text is laid out in sections, each independent of the others: a section ends after a line
made of a single cell, since such a line has no column, and after a form feed, which forces the
end. A form feed is written as a newline. Text after the last line break is the last line, written
without a line break.
-/

namespace RegisterLiveness

namespace Text

/-- A cell: its text, its width, and whether a horizontal tab ended it. -/
structure Cell where
  text : String
  width : Int
  htab : Bool := true
  deriving Repr, Inhabited

/-- A line of a section: its cells, and whether a line break ends it. -/
structure TableLine where
  cells : List Cell
  broken : Bool := true
  deriving Repr, Inhabited

/-- Whether a line has a cell in column `j`, its last cell excepted. -/
def TableLine.hasColumn (j : Nat) (l : TableLine) : Bool := j + 1 < l.cells.length

/-- A line with the widths of the columns known so far: every cell of a known column filled with
spaces to the column's width. -/
def TableLine.render (widths : List Nat) (l : TableLine) : String :=
  let cells := l.cells.zipIdx.map fun (c, j) =>
    match widths[j]? with
    | some w => c.text ++ String.ofList (List.replicate (w - c.width).toNat ' ')
    | none => c.text
  String.join cells ++ (if l.broken then "\n" else "")

/-- The width of column `j` over a run of lines: the widest cell plus `padding`. -/
def columnWidth (padding j : Nat) (run : List TableLine) : Nat :=
  (run.map fun l => (((l.cells[j]?).map (·.width)).getD 0 + (padding : Int)).toNat).foldl max 0

/-- Lay out the lines of a section, the widths of the first `widths.length` columns being known.
Lines without a cell in the next column are written as they are; each maximal run of lines with
one is laid out with that column's width added. `fuel` bounds the number of columns. -/
def formatLines (padding : Nat) (widths : List Nat) : (fuel : Nat) → List TableLine → String
  | 0, lines => String.join (lines.map (·.render widths))
  | fuel + 1, lines =>
    let j := widths.length
    let before := lines.takeWhile fun l => !l.hasColumn j
    let rest := lines.dropWhile fun l => !l.hasColumn j
    let run := rest.takeWhile (·.hasColumn j)
    let after := rest.dropWhile (·.hasColumn j)
    if run.isEmpty then String.join (lines.map (·.render widths))
    else
      String.join (before.map (·.render widths)) ++
        formatLines padding (widths ++ [columnWidth padding j run]) fuel run ++
        formatLines padding widths fuel after
termination_by structural fuel => fuel

/-- Lay out one section. -/
def formatSection (padding : Nat) (lines : List TableLine) : String :=
  formatLines padding [] ((lines.map (·.cells.length)).foldl max 0 + lines.length + 1) lines

/-- What a writer holds while reading text: what it has written, the lines of the current
section, the cells of the current line, the characters of the current cell, latest first, the
number of escapes closed in the current cell, and whether an escape is open. -/
structure TableState where
  written : String := ""
  lines : List TableLine := []
  cells : List Cell := []
  cell : List Char := []
  escapes : Nat := 0
  escaped : Bool := false
  deriving Repr, Inhabited

/-- The byte that brackets escaped text. -/
def escapeByte : Char := strayByte 0xFF

/-- The current cell, ended by a horizontal tab or not: its width leaves out two characters for
each escape in it. -/
def TableState.current (s : TableState) (htab : Bool) : Cell :=
  ⟨String.ofList s.cell.reverse, (s.cell.length : Int) - 2 * s.escapes, htab⟩

/-- Read one character. -/
def TableState.push (padding : Nat) (s : TableState) (c : Char) : TableState :=
  if s.escaped then
    if c = escapeByte then { s with cell := c :: s.cell, escapes := s.escapes + 1, escaped := false }
    else { s with cell := c :: s.cell }
  else if c = escapeByte then { s with cell := c :: s.cell, escaped := true }
  else if c = '\t' ∨ c = '\x0b' then
    { s with cells := s.cells ++ [s.current (c = '\t')], cell := [], escapes := 0 }
  else if c = '\n' ∨ c = '\x0c' then
    let cells := s.cells ++ [s.current false]
    let lines := s.lines ++ [⟨cells, true⟩]
    if c = '\x0c' ∨ cells.length = 1 then
      { written := s.written ++ formatSection padding lines }
    else { s with lines := lines, cells := [], cell := [], escapes := 0 }
  else { s with cell := c :: s.cell }

/-- The text laid out in columns `padding` spaces apart. -/
def tabulate (padding : Nat) (text : String) : String :=
  let s := text.toList.foldl (TableState.push padding) {}
  let s := if s.escaped then { s with escapes := s.escapes + 1 } else s
  let cells := if s.cell.isEmpty then s.cells else s.cells ++ [s.current false]
  s.written ++ formatSection padding (s.lines ++ [⟨cells, false⟩])

end Text

end RegisterLiveness
