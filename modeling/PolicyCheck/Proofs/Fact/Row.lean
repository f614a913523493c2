import PolicyCheck.Datalog.Relation
import PolicyCheck.Proofs.Datalog.Attachment

/-!
# Facts as rows

A row has the parts of a fact between two tabs. Tabs in the label, in keys and in strings are left as they
are, so a row can have further ones. Unless the label has any, they come last: the fact is put together
again from what the first two tabs part.
-/

namespace PolicyCheck.Fact

open Datalog.Relation (separator readRow)
open Text (OneLine oneLine_append)

/-- Whether a text fits into one cell of a row. -/
def OneCell (text : String) : Prop := separator ∉ text.toList

instance (text : String) : Decidable (OneCell text) := inferInstanceAs (Decidable (¬ _))

def cutAtTab (cs : List Char) : List Char × List Char :=
  (cs.takeWhile (· ≠ separator), (cs.dropWhile (· ≠ separator)).tail)

/-- The fact of a row that is cut at its first two tabs. -/
def lineOfRow (row : String) : String :=
  let (label, rest) := cutAtTab row.toList
  let (id, literal) := cutAtTab rest
  relation ++ "(\"" ++ String.ofList label ++ "\"," ++ String.ofList id ++ "," ++ String.ofList literal ++ ")."

variable {a b text : String} {scalar : Json} {t : Term}

/-! ### Cells -/

theorem oneCell_append : OneCell (a ++ b) ↔ OneCell a ∧ OneCell b := by
  rw [OneCell, String.toList_append, List.mem_append, not_or, OneCell, OneCell]

theorem oneCell_escape : OneCell (escape text) ↔ OneCell text := by
  have hchar (c : Char) : separator ∈ escapeChar c ↔ separator = c := by
    rw [escapeChar]
    split
    · subst c
      decide
    · split
      · subst c
        decide
      · exact List.mem_singleton
  simp only [OneCell, escape, String.toList_ofList, List.mem_flatMap, hchar, exists_eq_right']

theorem oneCell_toString (n : Int) : OneCell (toString n) := (Text.isInteger_toString n).not_mem rfl (by decide)

/-- The term of a scalar fits into a cell unless the scalar is a string that does not. -/
theorem Term.oneCell_ofScalar (h : ofScalar? scalar = some t) :
    OneCell t.text ↔ ∀ s, scalar = .string s → OneCell s := by
  cases scalar with
  | null =>
    cases h
    exact iff_of_true (by decide) nofun
  | bool b =>
    cases h
    exact iff_of_true (by cases b <;> decide) nofun
  | number n =>
    cases h
    exact iff_of_true (not_mem_ofNumber n (.inr rfl)) nofun
  | string content =>
    cases h
    have hmarks : OneCell "$String(\"" ∧ OneCell "\")" := by decide
    simp only [Term.text, oneCell_append, oneCell_escape, hmarks, true_and, and_true, Json.string.injEq,
      forall_eq']
  | array items => cases h
  | object fields => cases h

theorem Term.oneCell_under (t : Term) (step : Step) :
    OneCell (t.under step).text ↔ (∀ name, step = .key name → OneCell name) ∧ OneCell t.text := by
  have hmarks : OneCell "$Object(\"" ∧ OneCell "\", " ∧ OneCell "$Array(" ∧ OneCell ", " ∧ OneCell ")" := by
    decide
  cases step with
  | key name =>
    simp only [under, Term.text, oneCell_append, oneCell_escape, hmarks, true_and, and_true, Step.key.injEq,
      forall_eq']
  | index position =>
    have hdigits : OneCell (toString position) := (Text.digits_toString position).not_mem rfl
    simp only [under, Term.text, oneCell_append, hdigits, hmarks, true_and, and_true, reduceCtorEq,
      false_imp_iff, implies_true]

theorem Term.oneCell_wrap (t : Term) (path : Path) :
    OneCell (t.wrap path).text ↔ (∀ name, .key name ∈ path → OneCell name) ∧ OneCell t.text := by
  induction path generalizing t with
  | nil => exact (and_iff_right fun _ hname => nomatch hname).symm
  | cons step path ih =>
    have hkeys : (∀ name, .key name ∈ step :: path → OneCell name) ↔
        (∀ name, step = .key name → OneCell name) ∧ ∀ name, .key name ∈ path → OneCell name := by
      simp only [List.mem_cons, or_imp, forall_and, eq_comm]
    have hwrap : t.wrap (step :: path) = (t.under step).wrap path := rfl
    rw [hwrap, ih, oneCell_under, hkeys, and_left_comm, and_assoc]

/-! ### Rows -/

theorem cutAtTab_append {cs : List Char} (h : separator ∉ cs) (rest : List Char) :
    cutAtTab (cs ++ separator :: rest) = (cs, rest) := by
  rw [cutAtTab, (Text.takeWhile_append_of_not_mem h rest).1, (Text.takeWhile_append_of_not_mem h rest).2,
    List.tail_cons]

namespace Statement

theorem toList_row (s : Statement) :
    s.row.toList = s.label.toList ++ separator :: ((toString s.id).toList ++ separator :: s.term.text.toList) := by
  simp [row, separator]

theorem lineOfRow_row (s : Statement) (hlabel : OneCell s.label) : lineOfRow s.row = s.text := by
  rw [lineOfRow, toList_row, cutAtTab_append hlabel]
  dsimp only
  rw [cutAtTab_append (oneCell_toString s.id)]
  simp only [String.ofList_toList, text]

theorem length_readRow_row (s : Statement) :
    (readRow s.row.toList).length = 3 ↔ OneCell s.label ∧ OneCell s.term.text := by
  have hid : (toString s.id).toList.count separator = 0 := List.count_eq_zero.2 (oneCell_toString s.id)
  have hlength : (readRow s.row.toList).length =
      s.label.toList.count separator + s.term.text.toList.count separator + 3 := by
    rw [readRow, List.length_map, Text.length_pieces, toList_row, List.count_append, List.count_cons_self,
      List.count_append, List.count_cons_self, hid]
    omega
  rw [hlength, OneCell, OneCell, ← List.count_eq_zero, ← List.count_eq_zero]
  omega

end Statement

theorem exists_statement {document : Json} {leaf : Path × Json} {k : Nat} (label : String) (id : Int)
    (hleaf : document.leaves[k]? = some leaf) :
    ∃ t, IsTermOf leaf t ∧ (statements document label id)[k]? = some ⟨escape label, id, t⟩ := by
  obtain ⟨t, ht, hterm⟩ := exists_getElem?_of_forall₂ (isTermOf_terms [] document) hleaf
  refine ⟨t, hterm, ?_⟩
  rw [statements, List.getElem?_map, ht]
  rfl

theorem length_rows (document : Json) (label : String) (id : Int) :
    (rows document label id).length = document.leaves.length := by
  rw [rows, statements, List.length_map, List.length_map]
  exact (isTermOf_terms [] document).length_eq.symm

theorem oneLine_row_of_mem {document : Json} {label row : String} {id : Int}
    (h : row ∈ rows document label id) : OneLine row ∧ row ≠ "" := by
  obtain ⟨s, hs, rfl⟩ := List.mem_map.1 h
  have hline := (line_of_mem_lines (List.mem_map_of_mem hs : s.text ∈ lines document label id)).1
  have htab : OneLine "\t" := by decide
  constructor
  · simp only [Statement.text, oneLine_append] at hline
    simp only [Statement.row, oneLine_append, hline, htab, and_self]
  · intro hempty
    have hrow := s.toList_row
    rw [hempty] at hrow
    exact absurd hrow.symm (List.append_ne_nil_of_right_ne_nil _ (List.cons_ne_nil _ _))

end PolicyCheck.Fact
