import Mathlib.Data.List.Forall2

/-! # Comma-separated values

A reader of RFC 4180 with a line feed as line end: a cell is bare text without
commas, quotes and line breaks, or quoted text in which a quote stands twice.
The last line end may be left out. -/

namespace Csv

inductive Place where
  | start | bare | quoted
  /-- Behind a quote inside quoted text: the closing one, or the first of two. -/
  | closed
  deriving DecidableEq

structure Reader where
  place : Place := .start
  cell : List Char := []
  row : List (List Char) := []
  rows : List (List (List Char)) := []

def Reader.endCell (reader : Reader) : Reader :=
  { reader with place := .start, cell := [], row := reader.row ++ [reader.cell] }

def Reader.endRow (reader : Reader) : Reader :=
  { rows := reader.rows ++ [reader.row ++ [reader.cell]] }

def Reader.push (place : Place) (c : Char) (reader : Reader) : Reader :=
  { reader with place, cell := reader.cell ++ [c] }

/-- One character more, unless it may not stand there. -/
def Reader.step (reader : Reader) (c : Char) : Option Reader :=
  match reader.place with
  | .quoted =>
    if c = '"' then some { reader with place := .closed } else some (reader.push .quoted c)
  | .closed =>
    if c = '"' then some (reader.push .quoted c)
    else if c = ',' then some reader.endCell
    else if c = '\n' then some reader.endRow
    else none
  | place =>
    if c = ',' then some reader.endCell
    else if c = '\n' then some reader.endRow
    else if c = '"' then if place = .start then some { reader with place := .quoted } else none
    else if c = '\r' then none
    else some (reader.push .bare c)

def Reader.finish (reader : Reader) : Option (List (List (List Char))) :=
  if reader.place = .quoted then none
  else if reader.place = .start ∧ reader.row = [] then some reader.rows
  else some reader.endRow.rows

/-- The rows of a text, unless it is no such text. -/
def read (text : List Char) : Option (List (List (List Char))) :=
  (text.foldlM Reader.step {}).bind Reader.finish

example : read "host,os\nweb1,\"a \"\"b\"\", c\"\n".toList =
    some [["host".toList, "os".toList], ["web1".toList, "a \"b\", c".toList]] := by
  decide

/-! ## Texts of cells -/

/-- What bare text may not hold. -/
def special (c : Char) : Bool := c == ',' || c == '"' || c == '\n' || c == '\r'

def doubled (c : Char) : List Char := if c = '"' then ['"', '"'] else [c]

/-- A text that stands for a cell. -/
inductive Cell : List Char → List Char → Prop
  | bare {value : List Char} (h : value.all (!special ·) = true) : Cell value value
  | quoted (value : List Char) : Cell ('"' :: (value.flatMap doubled ++ ['"'])) value

/-- Where a cell that was read whole leaves the reader. -/
structure Reader.Read (value : List Char) (reader before : Reader) : Prop where
  place : reader.place ≠ .quoted
  cell : reader.cell = value
  row : reader.row = before.row
  rows : reader.rows = before.rows

theorem Reader.Read.comma {value : List Char} {before reader : Reader}
    (h : reader.Read value before) :
    reader.step ',' = some { row := before.row ++ [value], rows := before.rows } := by
  have hend : reader.step ',' = some reader.endCell := by
    unfold Reader.step
    cases hplace : reader.place with
    | quoted => exact absurd hplace h.place
    | start | bare | closed => rfl
  rw [hend, Reader.endCell, h.cell, h.row, h.rows]

theorem Reader.Read.newline {value : List Char} {before reader : Reader}
    (h : reader.Read value before) :
    reader.step '\n' = some { rows := before.rows ++ [before.row ++ [value]] } := by
  have hend : reader.step '\n' = some reader.endRow := by
    unfold Reader.step
    cases hplace : reader.place with
    | quoted => exact absurd hplace h.place
    | start | bare | closed => rfl
  rw [hend, Reader.endRow, h.cell, h.row, h.rows]

theorem foldlM_bare {value : List Char} (h : value.all (!special ·) = true) {reader : Reader}
    (hplace : reader.place = .start ∨ reader.place = .bare) :
    ∃ after, value.foldlM Reader.step reader = some after ∧
      after.Read (reader.cell ++ value) reader := by
  induction value generalizing reader with
  | nil =>
    refine ⟨reader, rfl, ?_, (List.append_nil _).symm, rfl, rfl⟩
    rcases hplace with hplace | hplace <;> simp [hplace]
  | cons c rest ih =>
    obtain ⟨hc, hrest⟩ := Bool.and_eq_true_iff.mp h
    have hstep : reader.step c = some (reader.push .bare c) := by
      have hne : c ≠ ',' ∧ c ≠ '"' ∧ c ≠ '\n' ∧ c ≠ '\r' := by
        simpa [special, and_assoc] using hc
      unfold Reader.step
      rcases hplace with hplace | hplace <;> simp [hplace, hne]
    obtain ⟨after, hafter, hread⟩ : ∃ after,
        rest.foldlM Reader.step (reader.push .bare c) = some after ∧
          after.Read (reader.cell ++ [c] ++ rest) (reader.push .bare c) := ih hrest (.inr rfl)
    refine ⟨after, by rw [List.foldlM_cons, hstep]; exact hafter, hread.place, ?_, hread.row,
      hread.rows⟩
    rw [hread.cell, List.append_assoc]
    rfl

theorem foldlM_quoted (value : List Char) {reader : Reader} (hplace : reader.place = .quoted) :
    (value.flatMap doubled).foldlM Reader.step reader =
      some { reader with cell := reader.cell ++ value } := by
  induction value generalizing reader with
  | nil => simp
  | cons c rest ih =>
    have hdoubled : (doubled c).foldlM Reader.step reader = some (reader.push .quoted c) := by
      unfold doubled
      split
      · rename_i hquote
        subst hquote
        simp [Reader.step, hplace, Reader.push]
      · rename_i hother
        simp [Reader.step, hplace, hother]
    rw [List.flatMap_cons, List.foldlM_append, hdoubled, Option.bind_eq_bind, Option.bind_some,
      ih rfl]
    simp [Reader.push, hplace]

/-- A cell is read as its value. -/
theorem Cell.foldlM {text value : List Char} (h : Cell text value) (row : List (List Char))
    (rows : List (List (List Char))) :
    ∃ after, text.foldlM Reader.step { row, rows } = some after ∧
      after.Read value { row, rows } := by
  cases h with
  | bare h => exact foldlM_bare h (.inl rfl)
  | quoted =>
    refine ⟨{ place := .closed, cell := value, row, rows }, ?_, by simp, rfl, rfl, rfl⟩
    rw [List.foldlM_cons]
    show List.foldlM Reader.step { place := .quoted, row, rows } _ = _
    rw [List.foldlM_append, foldlM_quoted value rfl]
    rfl

/-! ## Texts of rows -/

/-- The cells' texts with commas between them and a line end behind. -/
def line (first : List Char) (rest : List (List Char)) : List Char :=
  first ++ rest.flatMap (',' :: ·) ++ ['\n']

theorem foldlM_cells {texts values : List (List Char)} (h : List.Forall₂ Cell texts values)
    {value : List Char} {reader : Reader} {row : List (List Char)}
    {rows : List (List (List Char))} (hread : reader.Read value { row, rows }) :
    (texts.flatMap (',' :: ·) ++ ['\n']).foldlM Reader.step reader =
      some { rows := rows ++ [row ++ value :: values] } := by
  induction h generalizing value reader row with
  | nil =>
    rw [List.flatMap_nil, List.nil_append, List.foldlM_cons, hread.newline]
    rfl
  | cons hcell _ ih =>
    rw [List.flatMap_cons, List.append_assoc, List.cons_append, List.foldlM_cons, hread.comma,
      Option.bind_eq_bind, Option.bind_some, List.foldlM_append]
    obtain ⟨after, hafter, hread'⟩ := hcell.foldlM (row ++ [value]) rows
    rw [hafter, Option.bind_eq_bind, Option.bind_some, ih hread', List.append_assoc]
    rfl

theorem foldlM_line {first value : List Char} {texts values : List (List Char)}
    (hfirst : Cell first value) (h : List.Forall₂ Cell texts values)
    (rows : List (List (List Char))) :
    (line first texts).foldlM Reader.step { rows } =
      some { rows := rows ++ [value :: values] } := by
  obtain ⟨after, hafter, hread⟩ := hfirst.foldlM [] rows
  rw [line, List.append_assoc, List.foldlM_append, hafter]
  exact foldlM_cells h hread

section
variable {α : Type} {first firstValue : α → List Char} {texts values : α → List (List Char)}

theorem foldlM_lines (items : List α) (hfirst : ∀ item, Cell (first item) (firstValue item))
    (h : ∀ item, List.Forall₂ Cell (texts item) (values item)) (rows : List (List (List Char))) :
    (items.flatMap fun item => line (first item) (texts item)).foldlM Reader.step { rows } =
      some { rows := rows ++ items.map fun item => firstValue item :: values item } := by
  induction items generalizing rows with
  | nil => simp
  | cons item rest ih =>
    rw [List.flatMap_cons, List.foldlM_append, foldlM_line (hfirst item) (h item),
      Option.bind_eq_bind, Option.bind_some, ih, List.append_assoc]
    rfl

/-- Lines of cells, the first for a header, are read as the rows of their values. -/
theorem read_table {header headerValue : List Char} {headerTexts headerValues : List (List Char)}
    (hheader : Cell header headerValue) (hheaders : List.Forall₂ Cell headerTexts headerValues)
    (items : List α) (hfirst : ∀ item, Cell (first item) (firstValue item))
    (h : ∀ item, List.Forall₂ Cell (texts item) (values item)) :
    read (line header headerTexts ++ items.flatMap fun item => line (first item) (texts item)) =
      some ((headerValue :: headerValues) ::
        items.map fun item => firstValue item :: values item) := by
  rw [read, List.foldlM_append, show ({} : Reader) = { rows := [] } from rfl,
    foldlM_line hheader hheaders, Option.bind_eq_bind, Option.bind_some,
    foldlM_lines items hfirst h]
  rfl

end

end Csv
