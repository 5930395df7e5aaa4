import Mathlib.Algebra.GroupWithZero.Nat
import Mathlib.Order.Bounds.Defs
import Mathlib.Tactic.Use
import Credentials.Proofs.Printing
import Credentials.Proofs.Table

/-!
# Lines that are aligned

A table is printed line by line (`Table.prints_print`).  The lines are fields with bars between
them, and the fields of each line are as wide as the columns (`Table.Spans`): those of a row hold a
cell that fits, and those of the line between the header and the rows are made to measure.  Hence
all lines have the same length (`Table.Spans.units_line`), and on each of them a column begins and
ends at the same offset (`Table.Spans.standsAt_field`, `Table.Spans.standsAt_bar`).  Lengths and
offsets are counted in code units.
-/

namespace Credentials

/-- The text `s` is found in a line at the offset `n`. -/
def Text.StandsAt (s : Text) (n : Nat) (line : Text) : Prop :=
  ∃ before after, line = before ++ (s ++ after) ∧ Text.units before = n

namespace Table

/-- The offset at which the column `k` begins, after as many columns and as many bars. -/
def columnStart (ws : List Nat) (k : Nat) : Nat :=
  ((ws.take k).map (· + 2)).sum + k

/-- The offset at which the column `k` ends, and where its bar is, unless it is the last column. -/
def columnEnd (ws : List Nat) (k : Nat) : Nat :=
  ((ws.take (k + 1)).map (· + 2)).sum + k

/-- The lines that a table is printed in. -/
def lines (t : Table) : List Text :=
  rowText t.widths t.header :: ruleText t.widths :: t.rows.map (rowText t.widths)

/-- The lines that are printed of the table are of one length, with the bars one below the other,
and the columns hold their cells and are no wider than they need to be. -/
structure IsAligned (t : Table) : Prop where
  /-- The lines are those of the header, of the rule and of the rows, in this order. -/
  lines_eq : t.lines = rowText t.widths t.header :: ruleText t.widths ::
    t.rows.map (rowText t.widths)
  /-- What is printed are the lines, each with a line feed, and an empty line after them. -/
  prints : (t.print Printing.line).Prints
    (String.join (t.lines.map fun line => String.ofList line ++ "\n") ++ "\n") (.ok ())
  /-- No cell is wider than its column. -/
  fits : ∀ row ∈ t.header :: t.rows, Fits row t.widths
  /-- A column is as wide as its widest cell, the header included. -/
  isGreatest_units : ∀ k w : Nat, t.widths[k]? = some w →
    IsGreatest {n | ∃ row ∈ t.header :: t.rows, ∃ cell, row[k]? = some cell ∧ n = Text.units cell} w
  /-- Every line is as long as the columns, with a space on either side, and the bars between
  them. -/
  units_line : ∀ line ∈ t.lines,
    Text.units line = (t.widths.map (· + 2)).sum + (t.header.length - 1)
  /-- After each column but the last, every line has a bar. -/
  standsAt_bar : ∀ k, k + 1 < t.header.length →
    Text.StandsAt ['┼'] (columnEnd t.widths k) (ruleText t.widths) ∧
    ∀ row ∈ t.header :: t.rows,
      Text.StandsAt ['│'] (columnEnd t.widths k) (rowText t.widths row)
  /-- A column holds a space, the whole cell and then spaces up to its end. -/
  standsAt_cell : ∀ row ∈ t.header :: t.rows, ∀ k cell, row[k]? = some cell → ∃ spaces,
    Text.StandsAt (' ' :: (cell ++ List.replicate spaces ' ')) (columnStart t.widths k)
      (rowText t.widths row) ∧
    columnStart t.widths k + (1 + Text.units cell + spaces) = columnEnd t.widths k

/-- Each field is as wide as its column, with a space on either side. -/
def Spans (fields : List Text) (ws : List Nat) : Prop :=
  List.Forall₂ (fun field w => Text.units field = w + 2) fields ws

variable {t : Table} {row cell field s : Text} {cells fields : List Text} {ws : List Nat}
  {rows : List (List Text)} {bar : Char} {k n w : Nat}

/-! ### Offsets -/

theorem columnStart_cons (w : Nat) (ws : List Nat) (k : Nat) :
  columnStart (w :: ws) (k + 1) = w + 3 + columnStart ws k
  := by
  rw [columnStart, columnStart, List.take_succ_cons, List.map_cons, List.sum_cons]
  omega

theorem columnEnd_cons (w : Nat) (ws : List Nat) (k : Nat) :
  columnEnd (w :: ws) (k + 1) = w + 3 + columnEnd ws k
  := by
  rw [columnEnd, columnEnd, List.take_succ_cons, List.map_cons, List.sum_cons]
  omega

theorem columnEnd_eq (h : ws[k]? = some w) :
  columnEnd ws k = columnStart ws k + (w + 2)
  := by
  rw [columnEnd, columnStart, List.take_add_one, h, Option.toList_some, List.map_append,
    List.sum_append, List.map_singleton, List.sum_singleton]
  omega

/-! ### Fields and bars -/

theorem exists_intercalate_cons (bar : Char) (field : Text) (fields : List Text) :
  ∃ rest, [bar].intercalate (field :: fields) = field ++ rest
  := by
  cases fields with
  | nil =>
    use []
    rw [List.intercalate_singleton, List.append_nil]
  | cons field' fields =>
    use [bar] ++ [bar].intercalate (field' :: fields)
    rw [List.intercalate_cons_cons, List.append_assoc]

/-- What is found in the fields that follow is found farther on, by a field and a bar. -/
theorem standsAt_intercalate_cons (hbar : Text.unitsOf bar = 1) (hfield : Text.units field = w + 2)
    (hfields : fields ≠ []) (h : Text.StandsAt s n ([bar].intercalate fields)) :
  Text.StandsAt s (w + 3 + n) ([bar].intercalate (field :: fields))
  := by
  obtain ⟨before, after, hline, rfl⟩ := h
  use field ++ [bar] ++ before, after
  constructor
  · rw [List.intercalate_cons_of_ne_nil hfields, hline, List.append_assoc _ before]
  · rw [Text.units_append, Text.units_append, Text.units_cons, Text.units_nil, hfield, hbar]

/-- The length of a line is that of its fields and of the bars between them. -/
theorem Spans.units_line (h : Spans fields ws) (hbar : Text.unitsOf bar = 1) :
  Text.units ([bar].intercalate fields) = (ws.map (· + 2)).sum + (ws.length - 1)
  := by
  induction h with
  | nil => rfl
  | @cons field w fields ws hfield hfields ih =>
    cases hfields with
    | nil =>
      rw [List.intercalate_singleton, hfield]
      rfl
    | cons _ _ =>
      rw [List.intercalate_cons_cons, Text.units_append, Text.units_append, Text.units_cons,
        Text.units_nil, hfield, hbar, ih]
      simp only [List.map_cons, List.sum_cons, List.length_cons]
      omega

/-- Each field is found where its column begins. -/
theorem Spans.standsAt_field (h : Spans fields ws) (hbar : Text.unitsOf bar = 1)
    (hk : fields[k]? = some field) :
  Text.StandsAt field (columnStart ws k) ([bar].intercalate fields)
  := by
  -- The first field and its bar are left behind together with the first width.
  induction h generalizing k with
  | nil => cases hk
  | @cons field' w fields ws hfield' _ ih =>
    cases k with
    | zero =>
      obtain rfl := Option.some.inj hk
      obtain ⟨rest, hrest⟩ := exists_intercalate_cons bar field' fields
      use [], rest, hrest
      rfl
    | succ k =>
      have hfields : fields ≠ [] := by
        rintro rfl
        cases hk
      rw [columnStart_cons]
      apply standsAt_intercalate_cons hbar hfield' hfields (ih hk)

/-- Each bar is found where the column before it ends. -/
theorem Spans.standsAt_bar (h : Spans fields ws) (hbar : Text.unitsOf bar = 1)
    (hk : k + 1 < fields.length) :
  Text.StandsAt [bar] (columnEnd ws k) ([bar].intercalate fields)
  := by
  induction h generalizing k with
  | nil => cases hk
  | @cons field w fields ws hfield _ ih =>
    have hrest : k < fields.length := Nat.lt_of_succ_lt_succ hk
    have hfields : fields ≠ [] := List.ne_nil_of_length_pos (Nat.zero_lt_of_lt hrest)
    cases k with
    | zero =>
      use field, [bar].intercalate fields
      rw [List.intercalate_cons_of_ne_nil hfields, List.append_assoc]
      use rfl, hfield
    | succ k =>
      rw [columnEnd_cons]
      apply standsAt_intercalate_cons hbar hfield hfields (ih hrest)

/-! ### The fields of a line -/

theorem units_replicate (n : Nat) {c : Char} (h : Text.unitsOf c = 1) :
  Text.units (List.replicate n c) = n
  := by
  induction n with
  | zero => rfl
  | succ n ih => rw [List.replicate_succ, Text.units_cons, ih, h, Nat.add_comm]

theorem units_cellText (h : Text.units cell ≤ w) :
  Text.units (cellText w cell) = w + 2
  := by
  have hspace : Text.unitsOf ' ' = 1 := rfl
  rw [cellText, Text.units_append, Text.units_append, Text.units_cons, Text.units_cons,
    Text.units_nil, units_replicate _ hspace, hspace]
  omega

theorem cellText_eq (w : Nat) (cell : Text) :
  cellText w cell = ' ' :: (cell ++ List.replicate (w - Text.units cell + 1) ' ')
  := by
  rw [cellText, List.replicate_succ', List.cons_append, List.cons_append, List.append_assoc]

theorem Fits.spans (h : Fits cells ws) :
  Spans (List.zipWith cellText ws cells) ws
  := by
  induction h with
  | nil => apply List.Forall₂.nil
  | cons hcell _ ih =>
    apply List.Forall₂.cons
    · apply units_cellText hcell
    · apply ih

theorem spans_rule (ws : List Nat) :
  Spans (ws.map fun w => List.replicate (w + 2) '─') ws
  := by
  apply List.forall₂_map_left_iff.mpr
  apply List.forall₂_same.mpr
  intro w _
  apply units_replicate _ rfl

/-! ### Widths -/

theorem Fits.exists_width (h : Fits cells ws) (hk : cells[k]? = some cell) :
  ∃ w, ws[k]? = some w ∧ Text.units cell ≤ w
  := by
  induction h generalizing k with
  | nil => cases hk
  | @cons cell' w _ _ hcell' _ ih =>
    cases k with
    | zero =>
      obtain rfl := Option.some.inj hk
      use w, rfl
    | succ k => apply ih hk

/-- A width is enlarged only to that of a cell. -/
theorem getElem?_foldl_widen (h : (rows.foldl widen ws)[k]? = some w) :
  ws[k]? = some w ∨ ∃ row ∈ rows, ∃ cell, row[k]? = some cell ∧ w = Text.units cell
  := by
  induction rows generalizing ws with
  | nil =>
    left
    apply h
  | cons row rows ih =>
    rcases ih h with hwiden | ⟨row', hrow', hcell⟩
    · obtain ⟨w', cell, hw', hcell, rfl⟩ := List.getElem?_zipWith_eq_some.mp hwiden
      rcases Nat.le_total w' (Text.units cell) with hle | hle
      · right
        use row, List.mem_cons_self, cell, hcell
        apply Nat.max_eq_right hle
      · left
        rw [hw', Nat.max_eq_left hle]
    · right
      use row', List.mem_cons_of_mem _ hrow'

/-- Every width is that of a cell, or of the header. -/
theorem exists_cell_of_width (h : t.widths[k]? = some w) :
  ∃ row ∈ t.header :: t.rows, ∃ cell, row[k]? = some cell ∧ w = Text.units cell
  := by
  rcases getElem?_foldl_widen h with hheader | ⟨row, hrow, hcell⟩
  · rw [List.getElem?_map] at hheader
    obtain ⟨cell, hcell, rfl⟩ := Option.map_eq_some_iff.mp hheader
    use t.header, List.mem_cons_self, cell
  · use row, List.mem_cons_of_mem _ hrow

theorem isGreatest_units (hfits : ∀ row ∈ t.header :: t.rows, Fits row t.widths)
    (hw : t.widths[k]? = some w) :
  IsGreatest {n | ∃ row ∈ t.header :: t.rows, ∃ cell, row[k]? = some cell ∧ n = Text.units cell} w
  := by
  use exists_cell_of_width hw
  rintro n ⟨row, hrow, cell, hcell, rfl⟩
  obtain ⟨w', hw', hle⟩ := (hfits row hrow).exists_width hcell
  obtain rfl := Option.some.inj (hw.symm.trans hw')
  apply hle

/-! ### Tables -/

/-- A line of a table is the header, the line below it or a row, and each of them is made of fields
that are as wide as the columns. -/
theorem exists_spans_of_mem_lines (hfits : ∀ row ∈ t.header :: t.rows, Fits row t.widths)
    {line : Text} (h : line ∈ t.lines) :
  ∃ bar fields, Text.unitsOf bar = 1 ∧ Spans fields t.widths ∧ line = [bar].intercalate fields
  := by
  rw [lines, List.mem_cons, List.mem_cons, List.mem_map] at h
  rcases h with rfl | rfl | ⟨row, hrow, rfl⟩
  · use '│', List.zipWith cellText t.widths t.header, rfl
    use (hfits t.header List.mem_cons_self).spans
    rfl
  · use '┼', t.widths.map fun w => List.replicate (w + 2) '─', rfl
    use spans_rule t.widths
    rfl
  · use '│', List.zipWith cellText t.widths row, rfl
    use (hfits row (List.mem_cons_of_mem _ hrow)).spans
    rfl

theorem prints_print (t : Table) :
  (t.print Printing.line).Prints
    (String.join (t.lines.map fun line => String.ofList line ++ "\n") ++ "\n") (.ok ())
  := by
  have htext : String.join (t.lines.map fun line => String.ofList line ++ "\n") ++ "\n"
      = String.ofList (rowText t.widths t.header) ++ "\n" ++
        (String.ofList (ruleText t.widths) ++ "\n" ++
        (String.join (t.rows.map fun row => String.ofList (rowText t.widths row) ++ "\n") ++
        ("" ++ "\n"))) := by
    simp only [lines, List.map_cons, List.map_map, String.join_cons, String.append_assoc,
      String.empty_append, Function.comp_def]
  rw [htext]
  apply (Printing.prints_line _).bind
  apply (Printing.prints_line _).bind
  apply (Printing.prints_forM_line _ _).bind
  apply Printing.prints_line

/-- A table is aligned if its rows have as many cells as the header. -/
theorem isAligned_of_length_eq (h : ∀ row ∈ t.rows, row.length = t.header.length) :
  t.IsAligned
  := by
  have hfits : ∀ row ∈ t.header :: t.rows, Fits row t.widths := fun row => fits_of_mem h
  have hlength : t.header.length = t.widths.length := (hfits t.header List.mem_cons_self).length_eq
  constructor
  case lines_eq => rfl
  case prints => apply prints_print
  case fits => apply hfits
  case isGreatest_units => apply fun _ _ => isGreatest_units hfits
  case units_line =>
    intro line hline
    obtain ⟨bar, fields, hbar, hspans, rfl⟩ := exists_spans_of_mem_lines hfits hline
    rw [hspans.units_line hbar, hlength]
  case standsAt_bar =>
    intro k hk
    constructor
    · apply (spans_rule t.widths).standsAt_bar rfl
      rw [List.length_map, ← hlength]
      apply hk
    · intro row hrow
      have hspans := (hfits row hrow).spans
      apply hspans.standsAt_bar rfl
      rw [hspans.length_eq, ← hlength]
      apply hk
  case standsAt_cell =>
    intro row hrow k cell hcell
    obtain ⟨w, hw, hle⟩ := (hfits row hrow).exists_width hcell
    have hfield : (List.zipWith cellText t.widths row)[k]? = some (cellText w cell) :=
      List.getElem?_zipWith_eq_some.mpr ⟨w, cell, hw, hcell, rfl⟩
    use w - Text.units cell + 1
    rw [← cellText_eq, columnEnd_eq hw]
    use (hfits row hrow).spans.standsAt_field rfl hfield
    omega

/-- A table with a character of two code units, empty cells and bars within cells. -/
def clefs : Table :=
  ⟨["clef".toList, [], "line".toList],
    [["𝄞".toList, [], "│ ".toList], [[], "g│".toList, []]]⟩

theorem isAligned_clefs :
  (∀ row ∈ clefs.rows, row.length = clefs.header.length) ∧ clefs.IsAligned ∧
  ∀ line ∈ clefs.lines, Text.units line = 18
  := by
  have hlength : ∀ row ∈ clefs.rows, row.length = clefs.header.length := by decide
  have haligned := isAligned_of_length_eq hlength
  use hlength, haligned, haligned.units_line

end Table

end Credentials
