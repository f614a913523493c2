import Mathlib.Tactic.SplitIfs
import PolicyCheck.Datalog.Relation
import PolicyCheck.Proofs.Text.Lines

/-!
# Relations written and read

A relation is read back from its text, but for a carriage return at the end of a row, which the reader
takes as part of the line break; and a text of whole lines without carriage returns is written back as
it was. Rows are cut at tabs only after the text has been cut into lines, so that a line of no text is
a row of one empty cell, and only a text of no lines is a relation of no rows.
-/

namespace PolicyCheck.Datalog.Relation

variable {rows : Relation} {row : Row} {line : List Char}

/-- A row that can be written: it has a cell, and no cell holds a mark between cells or rows. -/
structure Writable (row : Row) : Prop where
  ne_nil : row ≠ []
  cells : ∀ cell ∈ row, separator ∉ cell.toList ∧ Text.OneLine cell

def dropReturn (cell : String) : String :=
  if cell.toList.getLast? = some '\r' then String.ofList cell.toList.dropLast else cell

/-- The row without a carriage return at the end of its last cell. -/
def chomp : Row → Row
  | [] => []
  | [cell] => [dropReturn cell]
  | cell :: next :: cells => cell :: chomp (next :: cells)

theorem ofList_dropReturn (cell : String) :
    String.ofList (Text.dropReturn cell.toList) = dropReturn cell := by
  rw [Text.dropReturn, dropReturn]
  split_ifs
  · rfl
  · rw [String.ofList_toList]

theorem chomp_of_getLast? (h : ∀ cell ∈ row.getLast?, cell.toList.getLast? ≠ some '\r') : chomp row = row := by
  induction row with
  | nil => rfl
  | cons cell cells ih =>
    cases cells with
    | nil => rw [chomp, dropReturn, if_neg (h cell rfl)]
    | cons next cells => rw [chomp, ih fun last hlast => h last hlast]

/-! ### Rows -/

theorem rowText_cons (cell next : String) (cells : Row) :
    (rowText (cell :: next :: cells)).toList =
      cell.toList ++ separator :: (rowText (next :: cells)).toList := by
  rw [rowText, String.intercalate_cons_cons, String.toList_append, String.toList_append,
    String.toList_singleton, List.append_assoc]
  rfl

theorem oneLine_rowText (h : Writable row) : Text.OneLine (rowText row) :=
  Text.oneLine_intercalate (by decide) fun cell hcell => (h.cells cell hcell).2

/-- A row is read back from its line, but for a carriage return at the end. -/
theorem readRow_rowText (h : Writable row) : readRow (Text.dropReturn (rowText row).toList) = chomp row := by
  obtain ⟨hne, hcells⟩ := h
  induction row with
  | nil => exact absurd rfl hne
  | cons cell cells ih =>
    obtain ⟨⟨hcell, -⟩, hrest⟩ := List.forall_mem_cons.1 hcells
    cases cells with
    | nil =>
      have hdropped : separator ∉ Text.dropReturn cell.toList := by
        rcases Text.dropReturn_eq_or cell.toList with heq | heq
        · rwa [← heq]
        · exact fun hmem => hcell (heq ▸ List.mem_append_left _ hmem)
      rw [rowText, String.intercalate_singleton, readRow, Text.pieces_of_not_mem hdropped, List.map_singleton,
        ofList_dropReturn, chomp]
    | cons next cells =>
      have hread := ih (List.cons_ne_nil next cells) hrest
      rw [readRow] at hread
      rw [rowText_cons, Text.dropReturn_append_cons (by decide), readRow, Text.pieces_append,
        Text.pieces_of_not_mem hcell, List.map_append, hread, List.map_singleton, String.ofList_toList, chomp,
        List.singleton_append]

theorem toList_rowText (cells : List (List Char)) :
    (rowText (cells.map String.ofList)).toList = Text.join [separator] cells := by
  induction cells with
  | nil => rfl
  | cons cell cells ih =>
    cases cells with
    | nil => rw [List.map_singleton, rowText, String.intercalate_singleton, String.toList_ofList, Text.join]
    | cons next cells =>
      rw [List.map_cons, List.map_cons, rowText_cons, ← List.map_cons, ih, String.toList_ofList]
      exact List.append_cons _ _ _

theorem rowText_readRow (line : List Char) : (rowText (readRow line)).toList = line := by
  rw [readRow, toList_rowText, Text.join_pieces]

/-! ### Texts -/

theorem text_cons (row : Row) (rows : Relation) :
    (text (row :: rows)).toList = (rowText row).toList ++ '\n' :: (text rows).toList := by
  rw [text, List.map_cons, String.join_cons, String.toList_append, String.toList_append, List.append_assoc, text]
  rfl

theorem ofText_text (h : ∀ row ∈ rows, Writable row) : ofText (text rows) = rows.map chomp := by
  induction rows with
  | nil => rfl
  | cons row rows ih =>
    obtain ⟨hrow, hrows⟩ := List.forall_mem_cons.1 h
    rw [ofText, text_cons, Text.lines_append (oneLine_rowText hrow), List.map_cons, readRow_rowText hrow,
      List.map_cons, ← ih hrows, ofText]

theorem text_readRows {cs : List Char} (hreturn : '\r' ∉ cs) (hwhole : cs = [] ∨ cs.getLast? = some '\n') :
    (text ((Text.lines cs).map readRow)).toList = cs := by
  induction cs using Text.line_induction with
  | last cs hcs =>
    obtain rfl := hwhole.resolve_right fun hlast => hcs (List.mem_of_getLast? hlast)
    rfl
  | line line rest hline ih =>
    obtain ⟨hline', hrest⟩ := not_or.1 (mt List.mem_append.2 hreturn)
    have hwhole' : rest = [] ∨ rest.getLast? = some '\n' := by
      rcases rest with _ | ⟨c, cs⟩
      · exact .inl rfl
      · have hlast := hwhole.resolve_left (List.append_ne_nil_of_right_ne_nil _ (List.cons_ne_nil _ _))
        rw [List.getLast?_append, List.getLast?_cons_cons, List.getLast?_cons] at hlast
        right
        rw [List.getLast?_cons]
        exact hlast
    rw [Text.lines_append hline, List.map_cons, text_cons, Text.dropReturn_of_not_mem hline', rowText_readRow,
      ih (List.not_mem_of_not_mem_cons hrest) hwhole']

theorem text_ofText {content : String} (hreturn : '\r' ∉ content.toList)
    (hwhole : content = "" ∨ content.toList.getLast? = some '\n') : text (ofText content) = content := by
  rw [← String.toList_inj, ofText, text_readRows hreturn (hwhole.imp_left String.toList_eq_nil_iff.2)]

end PolicyCheck.Datalog.Relation
