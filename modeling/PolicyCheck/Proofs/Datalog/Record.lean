import PolicyCheck.Datalog.Record
import PolicyCheck.Proofs.Except
import PolicyCheck.Proofs.Text.Blank

/-!
# Records in rows

Which rows are read as records, and as which. A row has to have two or three cells, and its second cell
has to be a numeral of 64 bits between white space; everything else in it is taken as it stands. A record
is read back from the row that stands for it, and a relation is read if each of its rows is.
-/

namespace PolicyCheck.Datalog.Record

open Text (Blank FitsInt64 IsSigned)

variable {row : Row} {r : Record} {cell : String} {n : Int}

/-- The cell is a numeral within 64 bits, with or without white space around it. -/
def Names (cell : String) (n : Int) : Prop :=
  ∃ front numeral back, cell.toList = front ++ numeral ++ back ∧ Blank front ∧ Blank back ∧
    IsSigned numeral n ∧ FitsInt64 n

/-- The row gives a record: the policy in its first cell, the repository that its second cell names, and
in its third cell, if it has one, the reason. -/
structure Gives (row : Row) (r : Record) : Prop where
  width : row.length = 2 ∨ row.length = 3
  policy : row[0]? = some r.policy
  repository : ∃ cell, row[1]? = some cell ∧ Names cell r.repository
  reason : row[2]? = r.reason?

theorem readRepository_eq_ok_iff : readRepository cell = .ok n ↔ Names cell n := by
  have hnames : Names cell n ↔ IsSigned (Text.trim cell.toList) n ∧ FitsInt64 n := by
    rw [Text.isSigned_trim_iff, Names]
    constructor
    · rintro ⟨front, numeral, back, hcell, hfront, hback, hnumeral, hfits⟩
      exact ⟨⟨front, numeral, back, hcell, hfront, hback, hnumeral⟩, hfits⟩
    · rintro ⟨⟨front, numeral, back, hcell, hfront, hback, hnumeral⟩, hfits⟩
      exact ⟨front, numeral, back, hcell, hfront, hback, hnumeral, hfits⟩
  rw [hnames, ← Text.int64?_eq_some_iff, readRepository]
  cases Text.int64? (Text.trim cell.toList) with
  | none => exact ⟨nofun, nofun⟩
  | some value => rw [Except.ok.injEq, Option.some.injEq]

theorem names_toString (h : FitsInt64 n) : Names (toString n) n :=
  ⟨[], (toString n).toList, [], (List.append_nil _).symm, List.forall_mem_nil _, List.forall_mem_nil _,
    (Text.isInteger_toString n).isSigned, h⟩

theorem ofRow_eq_ok_iff : ofRow row = .ok r ↔ Gives row r := by
  obtain ⟨policy, repository, reason?⟩ := r
  constructor
  · intro h
    rw [ofRow.eq_def] at h
    split at h
    · obtain ⟨n, hn, h⟩ := bind_eq_ok_iff.1 h
      cases h
      exact ⟨.inl rfl, rfl, ⟨_, rfl, readRepository_eq_ok_iff.1 hn⟩, rfl⟩
    · obtain ⟨n, hn, h⟩ := bind_eq_ok_iff.1 h
      cases h
      exact ⟨.inr rfl, rfl, ⟨_, rfl, readRepository_eq_ok_iff.1 hn⟩, rfl⟩
    · cases h
  · rintro ⟨hwidth, hpolicy, ⟨cell, hcell, hnames⟩, hreason⟩
    have hread := readRepository_eq_ok_iff.2 hnames
    rcases hwidth with hwidth | hwidth
    · obtain ⟨first, second, rfl⟩ := List.length_eq_two.1 hwidth
      cases hpolicy
      cases hcell
      cases hreason
      exact bind_eq_ok_iff.2 ⟨_, hread, rfl⟩
    · obtain ⟨first, second, third, rfl⟩ := List.length_eq_three.1 hwidth
      cases hpolicy
      cases hcell
      cases hreason
      exact bind_eq_ok_iff.2 ⟨_, hread, rfl⟩

theorem exists_gives_iff : (∃ r, Gives row r) ↔
    (row.length = 2 ∨ row.length = 3) ∧ ∃ cell, row[1]? = some cell ∧ ∃ n, Names cell n := by
  constructor
  · rintro ⟨r, hwidth, -, ⟨cell, hcell, hnames⟩, -⟩
    exact ⟨hwidth, cell, hcell, r.repository, hnames⟩
  · rintro ⟨hwidth, cell, hcell, n, hnames⟩
    have hfirst : 0 < row.length := by omega
    exact ⟨⟨row[0], n, row[2]?⟩, hwidth, List.getElem?_eq_getElem hfirst, ⟨cell, hcell, hnames⟩, rfl⟩

theorem gives_row (h : FitsInt64 r.repository) : Gives r.row r := by
  obtain ⟨policy, repository, reason?⟩ := r
  cases reason? with
  | none => exact ⟨.inl rfl, rfl, ⟨_, rfl, names_toString h⟩, rfl⟩
  | some reason => exact ⟨.inr rfl, rfl, ⟨_, rfl, names_toString h⟩, rfl⟩

/-- Rows are read exactly: which are, and as which records. A record is read back from its row, and a
relation gives the records of its rows in their order if every row gives one, and else none. -/
theorem rows_read_exactly (relations : Relations) (name : String) :
    (∀ row r, ofRow row = .ok r ↔ Gives row r) ∧
    (∀ row, (∃ r, ofRow row = .ok r) ↔
      (row.length = 2 ∨ row.length = 3) ∧ ∃ cell, row[1]? = some cell ∧ ∃ n, Names cell n) ∧
    (∀ r, FitsInt64 r.repository → ofRow r.row = .ok r) ∧
    (∀ records, ofRelations relations name = .ok records ↔
      List.Forall₂ Gives ((relations.get? name).getD []) records) ∧
    ((∃ records, ofRelations relations name = .ok records) ↔
      ∀ row ∈ (relations.get? name).getD [], ∃ r, ofRow row = .ok r) := by
  refine ⟨fun row r => ofRow_eq_ok_iff, fun row => ?_, fun r hr => ?_, fun records => ?_, exists_mapM_eq_ok_iff⟩
  · simp only [ofRow_eq_ok_iff]
    exact exists_gives_iff
  · exact ofRow_eq_ok_iff.2 (gives_row hr)
  · rw [ofRelations, mapM_eq_ok_iff]
    simp only [ofRow_eq_ok_iff]

theorem rows_read_exactly_least :
    ofRow (Record.row ⟨"p", -9223372036854775808, some ""⟩) = .ok ⟨"p", -9223372036854775808, some ""⟩ ∧
    ofRow ["p", "\u2003+00042\n"] = .ok ⟨"p", 42, none⟩ := by
  obtain ⟨hread, -, hback, -⟩ := rows_read_exactly ∅ failedRelation
  refine ⟨hback ⟨"p", -9223372036854775808, some ""⟩ (by decide), (hread _ _).2 ⟨.inl rfl, rfl, ⟨_, rfl, ?_⟩, rfl⟩⟩
  have hdigits : Text.Digits "00042".toList := by decide
  exact ⟨['\u2003'], '+' :: "00042".toList, ['\n'], by decide, by decide, by decide, .plus hdigits, by decide⟩

end PolicyCheck.Datalog.Record
