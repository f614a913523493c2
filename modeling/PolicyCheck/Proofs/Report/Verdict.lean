import PolicyCheck.Json.Record
import PolicyCheck.Report
import PolicyCheck.Proofs.Json.Printed

/-!
# Verdicts in reports

A report as text ends in the word for its verdict, and in JSON it gives the verdict in its fields. What
is said here is said of the printed text: it is looked at from its end, or read as JSON, and the verdict
found in it is that of the report.
-/

namespace PolicyCheck

/-! ### What is printed as JSON -/

namespace Json

/-- The text of the value can be read back: none of its numbers has a fraction. -/
def Readable (value : Json) : Prop := ∃ s, value.written? = some s

theorem readable_string (text : String) : (string text).Readable := ⟨_, rfl⟩

theorem readable_ofInt (n : Int) : (ofInt n).Readable := ⟨_, rfl⟩

theorem readable_array {items : List Json} (h : ∀ item ∈ items, item.Readable) : (array items).Readable := by
  suffices hitems : ∃ ss, writtenItems? items = some ss by
    obtain ⟨ss, hss⟩ := hitems
    exact ⟨.array ss, by rw [written?, hss, Option.map_some]⟩
  induction items with
  | nil => exact ⟨[], rfl⟩
  | cons item items ih =>
    obtain ⟨⟨s, hs⟩, hitems⟩ := List.forall_mem_cons.1 h
    obtain ⟨ss, hss⟩ := ih hitems
    exact ⟨s :: ss, by rw [writtenItems?, hs, hss]; rfl⟩

theorem readable_object {fields : List (String × Json)} (h : ∀ field ∈ fields, field.2.Readable) :
    (object fields).Readable := by
  suffices hfields : ∃ ss, writtenFields? fields = some ss by
    obtain ⟨ss, hss⟩ := hfields
    exact ⟨.object ss, by rw [written?, hss, Option.map_some]⟩
  induction fields with
  | nil => exact ⟨[], rfl⟩
  | cons field fields ih =>
    obtain ⟨⟨s, hs⟩, hfields⟩ := List.forall_mem_cons.1 h
    obtain ⟨ss, hss⟩ := ih hfields
    exact ⟨(some field.1, s) :: ss, by rw [writtenFields?, hs, hss]; rfl⟩

end Json

namespace Report

open Datalog (Record)
open Json (Syntax Readable)
open Json.Syntax (bool? nullable? required?)

theorem readable_record (r : Record) : r.toJson.Readable := by
  refine Json.readable_object fun field hfield => ?_
  rcases List.mem_append.1 hfield with hfield | hfield
  · simp only [List.mem_cons, List.not_mem_nil, or_false] at hfield
    rcases hfield with rfl | rfl
    · exact Json.readable_string _
    · exact Json.readable_ofInt _
  · obtain ⟨reason, -, rfl⟩ := List.mem_map.1 hfield
    exact Json.readable_string reason

theorem readable_recordsJson (records : List Record) : (recordsJson records).Readable := by
  refine Json.readable_array fun item hitem => ?_
  obtain ⟨record, -, rfl⟩ := List.mem_map.1 hitem
  exact readable_record record

theorem readable_relationsJson (relations : Datalog.Relations) :
    (Evaluation.relationsJson relations).Readable := by
  refine Json.readable_object fun field hfield => ?_
  obtain ⟨relation, -, rfl⟩ := List.mem_map.1 hfield
  refine Json.readable_array fun item hitem => ?_
  obtain ⟨row, -, rfl⟩ := List.mem_map.1 hitem
  refine Json.readable_array fun cell hcell => ?_
  obtain ⟨text, -, rfl⟩ := List.mem_map.1 hcell
  exact Json.readable_string text

/-! ### Verdicts in JSON -/

/-- The verdict in the field of a report on one policy. -/
def policyVerdict? (value : Syntax) : Option Bool := do
  let [passed] ← value.record? ["passed"] | none
  required? bool? passed

/-- The verdict that the fields of a report on a registry come to; a part with nothing to evaluate is
`null` and does not count. -/
def registryVerdict? (value : Syntax) : Option Bool := do
  let [datalog, validation] ← value.record? ["datalog_passed", "validation"] | none
  let datalog ← required? (nullable? bool?) datalog
  let validation ← required? (nullable? policyVerdict?) validation
  return datalog.getD true && validation.getD true

/-- The output is JSON text with the verdict in it. -/
def Reads (verdict? : Syntax → Option Bool) (output : String) (passed : Bool) : Prop :=
  ∃ value, Syntax.ofText? output = some value ∧ verdict? value = some passed

theorem Evaluation.reads (e : Evaluation) : Reads policyVerdict? (e.render .json) e.passed := by
  obtain ⟨passed, hpassed⟩ := readable_recordsJson e.passedRecords
  obtain ⟨failed, hfailed⟩ := readable_recordsJson e.failedRecords
  obtain ⟨relations, hrelations⟩ := readable_relationsJson e.relations
  have hwritten : e.toJson.written? = some (.object [(some "policy_hash", .string (some e.hash)),
      (some "passed", .bool e.passed), (some "passed_policies", passed), (some "failed_policies", failed),
      (some "relations", relations)]) := by
    simp [toJson, Json.written?, Json.writtenFields?, hpassed, hfailed, hrelations]
  exact ⟨_, Syntax.ofText?_indented hwritten, rfl⟩

/-- What a report on one structural policy is read as. -/
def Validation.toSyntax (v : Validation) : Syntax :=
  .object [(some "id", .string (some v.id)), (some "description", .string (some v.description)),
    (some "target", .string (some v.target)), (some "passed", .bool v.passed)]

theorem Validation.written?_toJson (v : Validation) : v.toJson.written? = some v.toSyntax := rfl

theorem Validation.policyVerdict?_toSyntax (v : Validation) : policyVerdict? v.toSyntax = some v.passed := rfl

theorem Validation.reads (v : Validation) : Reads policyVerdict? (v.render .json) v.passed :=
  ⟨v.toSyntax, Syntax.ofText?_indented v.written?_toJson, v.policyVerdict?_toSyntax⟩

theorem Check.reads (c : Check) : Reads registryVerdict? (c.render .json) c.passed := by
  obtain ⟨passed, hpassed⟩ := readable_recordsJson c.passedRecords
  obtain ⟨failed, hfailed⟩ := readable_recordsJson c.failedRecords
  have hwritten : c.toJson.written? = some (.object [
      (some "datalog_passed", (c.datalogPassed?.map Syntax.bool).getD .null),
      (some "passed_policies", passed), (some "failed_policies", failed),
      (some "validation", (c.validation?.map Validation.toSyntax).getD .null)]) := by
    rw [toJson, Json.written?]
    simp only [Json.writtenFields?, hpassed, hfailed]
    cases c.datalogPassed? <;> cases c.validation? <;> rfl
  refine ⟨_, Syntax.ofText?_indented hwritten, ?_⟩
  rw [Check.passed]
  cases c.datalogPassed? <;> cases c.validation? <;> rfl

/-! ### Verdicts in text -/

/-- The last line of the output ends in the word. -/
def EndsIn (output word : String) : Prop := (line word).toList <:+ output.toList

theorem toList_line (text : String) : (line text).toList = text.toList ++ ['\n'] := String.toList_append

theorem length_verdict (passed : Bool) : (verdict passed).toList.length = 6 := by cases passed <;> decide

theorem verdict_inj {passed passed' : Bool} : verdict passed = verdict passed' ↔ passed = passed' := by
  cases passed <;> cases passed' <;> decide

theorem endsIn_verdict_iff (front : String) (passed passed' : Bool) :
    EndsIn (front ++ line (verdict passed)) (verdict passed') ↔ passed' = passed := by
  rw [EndsIn, String.toList_append, toList_line, toList_line]
  have hend : (verdict passed).toList ++ ['\n'] <:+ front.toList ++ ((verdict passed).toList ++ ['\n']) :=
    List.suffix_append _ _
  constructor
  · intro hend'
    -- The words are of one length, so only one of them can stand at the end.
    have hlength : ((verdict passed').toList ++ ['\n']).length = ((verdict passed).toList ++ ['\n']).length := by
      rw [List.length_append, List.length_append, length_verdict, length_verdict]
    have hsame := (List.suffix_of_suffix_length_le hend' hend (Nat.le_of_eq hlength)).eq_of_length hlength
    exact verdict_inj.1 (String.toList_inj.1 (List.append_cancel_right hsame))
  · rintro rfl
    exact hend

theorem verdictLine_eq (passed : Bool) : verdictLine passed = "Verdict: " ++ line (verdict passed) :=
  String.append_assoc

theorem Evaluation.exists_text_eq (e : Evaluation) : ∃ front, e.render .text = front ++ line (verdict e.passed) :=
  ⟨_, by rw [render, text, verdictLine_eq, ← String.append_assoc]⟩

theorem Validation.exists_text_eq (v : Validation) : ∃ front, v.render .text = front ++ line (verdict v.passed) :=
  ⟨_, String.append_assoc⟩

theorem Check.exists_text_eq (c : Check) : ∃ front, c.render .text = front ++ line (verdict c.passed) :=
  ⟨_, by rw [render, text, verdictLine_eq, ← String.append_assoc]⟩

end Report

end PolicyCheck
