import PolicyCheck.Proofs.Schema.Outline
import PolicyCheck.Proofs.Schema.Row

/-!
# What a pivot rule derives

Both kinds of pivot bind one column to the variable of the value and some key columns to variables of
their own. Where these variables are free (`Table.Binds`), a rule derives one tuple for each row that
has no excluded value in the column: the cells of the key columns, the label and the wrapped cell.
-/

namespace PolicyCheck

open Datalog

/-- The constructor for the values of a column of a type. -/
def SqlType.constructor? : SqlType → Option String
  | .integer => some "$Int"
  | .boolean => some "$Bool"
  | .string | .text => some "$String"
  | .other _ => none

/-- Whether the values of a column of a type are symbols. -/
def SqlType.isSymbol : SqlType → Bool
  | .string | .text => true
  | .integer | .boolean | .other _ => false

namespace Column

variable {table : String} {c : Column}

theorem constructor?_of_wrapper {w : Wrapper} (h : c.wrapper table = .ok w) :
    c.type.constructor? = some w.text := by
  rw [wrapper] at h
  cases htype : c.type with
  | other type =>
    rw [htype] at h
    cases h
  | integer | boolean | string | text =>
    rw [htype] at h
    obtain rfl := Except.ok.inj h
    rfl

theorem not_unsupported_of_constructor? {name : String} (h : c.type.constructor? = some name) :
    ¬ c.Unsupported := by
  rintro ⟨type, htype⟩
  rw [htype] at h
  cases h

theorem eq_symbol_iff_isSymbol {a : AttributeType} (h : c.attributeType table = .ok a) :
    a = .symbol ↔ c.type.isSymbol = true := by
  rw [attributeType] at h
  cases htype : c.type with
  | other type =>
    rw [htype] at h
    cases h
  | integer | boolean | string | text =>
    rw [htype] at h
    obtain rfl := Except.ok.inj h
    decide

end Column

namespace Table

/-- The rule binds the column of a name to the variable of the value, and the key columns to free
variables that tell them apart. -/
structure Binds (t : Table) (r : PivotRule) (column : String) (keys : List String)
    (variableOf : String → String) : Prop where
  source : r.source = t.relation
  heads : r.keys = keys.map variableOf
  pattern : r.pattern = t.columns.map fun c =>
    if c.name = column then PivotRule.valueVariable
    else if c.name ∈ keys then variableOf c.name
    else PivotRule.wildcard
  column_mem : column ∈ t.columns.map Column.name
  keys_mem : ∀ k ∈ keys, k ∈ t.columns.map Column.name
  apart : column ∉ keys
  injective : ∀ k ∈ keys, ∀ k' ∈ keys, variableOf k = variableOf k' → k = k'
  not_value : ∀ k ∈ keys, variableOf k ≠ PivotRule.valueVariable
  not_wildcard : ∀ k ∈ keys, variableOf k ≠ PivotRule.wildcard

/-- The assignment that a row gives to the variables of a rule. -/
def assignment (t : Table) (row : Tuple) (keys : List String) (variableOf : String → String)
    (value : Datum) (name : String) : Datum :=
  if name = PivotRule.valueVariable then value
  else ((keys.find? fun k => variableOf k = name).bind (t.cell? row)).getD value

section Binds

variable {t : Table} {r : PivotRule} {column : String} {keys : List String}
  {variableOf : String → String} {row : Tuple} {env : String → Datum}

theorem Binds.assignment_key (h : t.Binds r column keys variableOf) {k : String} (hk : k ∈ keys)
    {d value : Datum} (hd : t.cell? row k = some d) :
    t.assignment row keys variableOf value (variableOf k) = d := by
  have hfind : keys.find? (fun k' => variableOf k' = variableOf k) = some k := by
    cases hfound : keys.find? (fun k' => variableOf k' = variableOf k) with
    | none =>
      have hnone := List.find?_eq_none.1 hfound k hk
      exact absurd (decide_eq_true rfl) hnone
    | some k' =>
      have hsame := List.find?_some hfound
      rw [h.injective k' (List.mem_of_find?_eq_some hfound) k hk (of_decide_eq_true hsame)]
  rw [assignment, if_neg (h.not_value k hk), hfind, Option.bind_some, hd, Option.getD_some]

/-- The body atom fits a row exactly if the assignment gives the cells of the column and the keys to
their variables. -/
theorem Binds.matches_iff (h : t.Binds r column keys variableOf)
    (hnames : (t.columns.map Column.name).Nodup) :
    List.Forall₂ (Argument.Matches env) (r.pattern.map .ofText) row ↔
      row.length = t.columns.length ∧ t.cell? row column = some (env PivotRule.valueVariable) ∧
        ∀ k ∈ keys, t.cell? row k = some (env (variableOf k)) := by
  have hpattern : r.pattern.map Argument.ofText = t.columns.map fun c => Argument.ofText
      (if c.name = column then PivotRule.valueVariable
       else if c.name ∈ keys then variableOf c.name else PivotRule.wildcard) := by
    rw [h.pattern, List.map_map]
    rfl
  have hfits (name : String) (d : Datum) (hname : name ≠ PivotRule.wildcard) :
      (Argument.ofText name).Matches env d ↔ env name = d := by
    rw [Argument.ofText, if_neg hname]
    exact Option.some_inj
  have hvalue : PivotRule.valueVariable ≠ PivotRule.wildcard := by decide
  rw [hpattern, matches_iff_cell? hnames fun name => Argument.ofText
    (if name = column then PivotRule.valueVariable
     else if name ∈ keys then variableOf name else PivotRule.wildcard)]
  refine and_congr_right fun hlength => ?_
  constructor
  · intro hcells
    constructor
    · obtain ⟨d, hd⟩ := exists_cell? hlength h.column_mem
      have hfit := hcells column d hd
      rw [if_pos rfl, hfits _ _ hvalue] at hfit
      rw [hd, hfit]
    · intro k hk
      obtain ⟨d, hd⟩ := exists_cell? hlength (h.keys_mem k hk)
      have hne : k ≠ column := fun heq => h.apart (heq ▸ hk)
      have hfit := hcells k d hd
      rw [if_neg hne, if_pos hk, hfits _ _ (h.not_wildcard k hk)] at hfit
      rw [hd, hfit]
  · intro hparts name d hd
    obtain ⟨hcolumn, hkeys⟩ := hparts
    by_cases hname : name = column
    · rw [if_pos hname, hfits _ _ hvalue]
      rw [hname, hcolumn] at hd
      exact Option.some.inj hd
    · rw [if_neg hname]
      by_cases hkey : name ∈ keys
      · rw [if_pos hkey, hfits _ _ (h.not_wildcard name hkey)]
        rw [hkeys name hkey] at hd
        exact Option.some.inj hd
      · rw [if_neg hkey]
        trivial

theorem Binds.head_iff (h : t.Binds r column keys variableOf) {tuple : Tuple} :
    List.Forall₂ (fun a d => Argument.value? env a = some d) r.rule.head.arguments tuple ↔
      tuple = keys.map (fun k => env (variableOf k)) ++
        [Datum.symbol r.label, .single r.wrapper.text (env PivotRule.valueVariable)] := by
  have hkeys : (r.keys.map Argument.ofText).map (Argument.value? env) =
      (keys.map fun k => env (variableOf k)).map some := by
    rw [h.heads, List.map_map, List.map_map, List.map_map]
    refine List.map_congr_left fun k hk => ?_
    rw [Function.comp_apply, Function.comp_apply, Argument.ofText, if_neg (h.not_wildcard k hk)]
    rfl
  have hvalues : r.rule.head.arguments.map (Argument.value? env) =
      (keys.map (fun k => env (variableOf k)) ++
        [Datum.symbol r.label, .single r.wrapper.text (env PivotRule.valueVariable)]).map some := by
    rw [PivotRule.rule, List.map_append, List.map_append, hkeys]
    rfl
  rw [forall₂_eq_some_iff, hvalues, List.map_inj_right fun _ _ => Option.some.inj]
  exact eq_comm

/-- The conditions of the rule: its body atom fits a row, and the value is not the excluded one. -/
theorem holds_body_iff {contents : Contents} :
    (∀ l ∈ r.rule.body, l.Holds env contents) ↔
      (∃ row ∈ contents r.source, List.Forall₂ (Argument.Matches env) (r.pattern.map .ofText) row) ∧
        ∀ e, r.excluded = some e → env PivotRule.valueVariable ≠ .symbol e := by
  rw [PivotRule.rule, List.forall_mem_cons]
  refine and_congr Iff.rfl ?_
  cases hexcluded : r.excluded with
  | none => simp
  | some e =>
    simp [Literal.Holds, PivotRule.valueArgument, Argument.value?]

theorem Binds.derives_iff (h : t.Binds r column keys variableOf)
    (hnames : (t.columns.map Column.name).Nodup) {contents : Contents} {tuple : Tuple} :
    r.rule.Derives contents tuple ↔
      ∃ row ∈ t.rows contents, ∃ cells value,
        List.Forall₂ (fun k d => t.cell? row k = some d) keys cells ∧
          t.cell? row column = some value ∧ (∀ e, r.excluded = some e → value ≠ .symbol e) ∧
          tuple = cells ++ [.symbol r.label, .single r.wrapper.text value] := by
  constructor
  · intro hparts
    obtain ⟨env, hbody, hhead⟩ := hparts
    obtain ⟨⟨row, hrow, hmatches⟩, hexcluded⟩ := holds_body_iff.1 hbody
    obtain ⟨hlength, hcolumn, hkeys⟩ := (h.matches_iff hnames).1 hmatches
    rw [h.source] at hrow
    refine ⟨row, ⟨hrow, hlength⟩, keys.map fun k => env (variableOf k), env PivotRule.valueVariable,
      ?_, hcolumn, hexcluded, h.head_iff.1 hhead⟩
    rw [List.forall₂_map_right_iff, List.forall₂_same]
    exact hkeys
  · rintro ⟨row, ⟨hrow, hlength⟩, cells, value, hcells, hcolumn, hexcluded, rfl⟩
    rw [← h.source] at hrow
    have hvalue : t.assignment row keys variableOf value PivotRule.valueVariable = value := if_pos rfl
    have hkeys : ∀ k ∈ keys, t.cell? row k =
        some (t.assignment row keys variableOf value (variableOf k)) := by
      intro k hk
      obtain ⟨d, hd⟩ := exists_cell? hlength (h.keys_mem k hk)
      rw [h.assignment_key hk hd, hd]
    have hmap : cells = keys.map fun k => t.assignment row keys variableOf value (variableOf k) := by
      refine (List.map_inj_right fun _ _ => Option.some.inj).1 ((forall₂_eq_some_iff.1 hcells).symm.trans ?_)
      rw [List.map_map]
      exact List.map_congr_left hkeys
    refine ⟨t.assignment row keys variableOf value, holds_body_iff.2 ⟨⟨row, hrow, ?_⟩, ?_⟩,
      h.head_iff.2 ?_⟩
    · exact (h.matches_iff hnames).2 ⟨hlength, hvalue ▸ hcolumn, hkeys⟩
    · rw [hvalue]
      exact hexcluded
    · rw [hvalue, hmap]

end Binds

end Table

end PolicyCheck
