import PolicyCheck.Proofs.Fact.Row
import PolicyCheck.Proofs.Interpreter.Workspace

/-!
# Fact files

The file of a relation holds its rows, each with a line break behind it. Rows of documents are never empty
and hold no line break, so the lines of the file are just these rows.
-/

namespace PolicyCheck.Interpreter.Workspace

open PolicyCheck.Action
open PolicyCheck.Fact (OneCell)

variable {h h' : Host} {w : Workspace} {relation label : String} {id : Int} {document : Json} {p : FilePath}
  {rows : List String}

theorem factText_eq_join (hrows : ∀ row ∈ rows, row ≠ "") :
    factText rows = String.join (rows.map (· ++ "\n")) := by
  rw [factText]
  cases rows with
  | nil => rfl
  | cons row rows =>
    have hrow : row ≠ "" := hrows row List.mem_cons_self
    have hne : "\n".intercalate (row :: rows) ≠ "" := by
      cases rows with
      | nil => rwa [String.intercalate_singleton]
      | cons next rows =>
        rw [String.intercalate_cons_cons, String.append_assoc]
        exact fun hempty => hrow (String.append_eq_empty_iff.1 hempty).1
    rw [← Text.intercalate_append_break]
    exact if_neg (mt String.isEmpty_iff.1 hne)

theorem read_stageFacts (hstage : (w.stageFacts relation rows).on h = (.ok p, h')) :
    h'.files.read h'.directory p = .ok (Text.Utf8.encode (factText rows).toList) := by
  obtain ⟨⟨⟩, h₁, hwrite, hdone⟩ := on_bind_eq_ok.1 hstage
  obtain ⟨rfl, rfl⟩ := on_pure_eq_ok.1 hdone
  obtain ⟨files, hfiles, rfl⟩ := Host.on_write_eq_ok.1 hwrite
  exact FileTree.read_of_write hfiles

/-- A staged file is empty for a document without leaves, and else its lines are the rows, one for each leaf.
Unless the label has a tab, the statement about the leaf is rebuilt from what the first two tabs of the row
part, and the row has just three cells if the label, the keys on the way to the leaf and the leaf have none. -/
theorem stageFacts_keeps_rows
    (hstage : (w.stageFacts relation (Fact.rows document label id)).on h = (.ok p, h')) :
    ∃ text, h'.files.read h'.directory p = .ok (Text.Utf8.encode text.toList) ∧
      (text = "" ↔ document.leaves = []) ∧
      text = String.join ((Fact.rows document label id).map (· ++ "\n")) ∧
      Text.textLines text = Fact.rows document label id ++ [""] ∧
      (Fact.rows document label id).length = document.leaves.length ∧
      ∀ (k : Nat) (leaf : Path × Json), document.leaves[k]? = some leaf → ∃ row line,
        (Fact.rows document label id)[k]? = some row ∧ (Fact.lines document label id)[k]? = some line ∧
        (OneCell label → Fact.lineOfRow row = line) ∧
        ((Datalog.Relation.readRow row.toList).length = 3 ↔ OneCell label ∧
          (∀ name, Step.key name ∈ leaf.1 → OneCell name) ∧ ∀ s, leaf.2 = .string s → OneCell s) := by
  have hrows : ∀ row ∈ Fact.rows document label id, Text.OneLine row ∧ row ≠ "" := fun row hrow =>
    Fact.oneLine_row_of_mem hrow
  have hjoin := factText_eq_join fun row hrow => (hrows row hrow).2
  have hlines : Text.textLines (factText (Fact.rows document label id)) = Fact.rows document label id ++ [""] := by
    have hlines := Text.textLines_join (Fact.rows document label id) ""
    rwa [String.append_empty, Text.flatMap_textLines fun row hrow => (hrows row hrow).1, ← hjoin] at hlines
  have hlength := Fact.length_rows document label id
  refine ⟨_, read_stageFacts hstage, ?_, hjoin, hlines, hlength, fun k leaf hleaf => ?_⟩
  · rw [← List.length_eq_zero_iff, ← hlength, List.length_eq_zero_iff]
    constructor
    · intro hempty
      rw [hempty] at hlines
      exact List.self_eq_append_left.1 hlines
    · intro hnone
      rw [hnone]
      rfl
  · obtain ⟨t, ⟨terminal, hterminal, rfl⟩, hstatement⟩ := Fact.exists_statement label id hleaf
    let s : Fact.Statement := ⟨Fact.escape label, id, terminal.wrap leaf.1⟩
    have hrow : (Fact.rows document label id)[k]? = some s.row := by
      rw [Fact.rows, List.getElem?_map, hstatement, Option.map_some]
    have hline : (Fact.lines document label id)[k]? = some s.text := by
      rw [Fact.lines, List.getElem?_map, hstatement, Option.map_some]
    refine ⟨s.row, s.text, hrow, hline, fun hlabel => ?_, ?_⟩
    · exact s.lineOfRow_row (Fact.oneCell_escape.2 hlabel)
    · rw [Fact.Statement.length_readRow_row, Fact.oneCell_escape, Fact.Term.oneCell_wrap,
        Fact.Term.oneCell_ofScalar hterminal]

namespace Tabbed

def host : Host where
  files := ⟨[(["facts"], .directory)]⟩

def workspace : Workspace where
  root := ["tmp"]
  binary := ⟨"/souffle"⟩
  outputDir? := none
  includeDir := ⟨"/facts"⟩
  factDir := ⟨"/facts"⟩
  libraryDir := ⟨"/facts"⟩

/-- A document with a tab in a key and a line break in a string. -/
def item : Json := .object [("a\tb", .bool true), ("c", .string "d\ne")]

end Tabbed

open Tabbed in
theorem stageFacts_keeps_rows_tabbed : ∃ p h' text,
    (workspace.stageFacts "json" (Fact.rows item "q" 7)).on host = (.ok p, h') ∧
      h'.files.read h'.directory p = .ok (Text.Utf8.encode text.toList) ∧
      Text.textLines text =
        ["q\t7\t$Object(\"a\tb\", $Bool(1))", "q\t7\t$Object(\"c\", $String(\"d\\ne\"))", ""] := by
  have hresult : ((workspace.stageFacts "json" (Fact.rows item "q" 7)).on host).1.toOption =
      some ⟨"/facts/json.facts"⟩ := by
    decide +kernel
  obtain ⟨h', hstage⟩ := exists_on_eq (toOption_eq_some_iff.1 hresult)
  obtain ⟨text, hread, -, -, hlines, -⟩ := stageFacts_keeps_rows hstage
  refine ⟨_, h', text, hstage, hread, hlines.trans ?_⟩
  decide +kernel

end PolicyCheck.Interpreter.Workspace
