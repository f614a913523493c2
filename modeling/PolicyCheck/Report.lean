import PolicyCheck.Datalog.Policy
import PolicyCheck.Structural.Policy

/-!
# Reports

What the commands print. Every report has a text for people, which ends in its verdict, and an
indented JSON object with its fields in a fixed order. Either ends in a line break.
-/

namespace PolicyCheck.Report

open Datalog (Record Relation)

inductive Style where
  | text
  | json
deriving DecidableEq, Repr

def verdict (passed : Bool) : String := if passed then "PASSED" else "FAILED"

def line (text : String) : String := text ++ "\n"

def entry (text : String) : String := line ("    " ++ text)

def verdictLine (passed : Bool) : String := line ("Verdict: " ++ verdict passed)

def recordsJson (records : List Record) : Json := .array (records.map Record.toJson)

def recordsText (heading : String) (records : List Record) : String :=
  line heading ++ String.join (records.map fun record => entry record.text)

/-! ### One Datalog policy -/

structure Evaluation where
  /-- The digest of the policy. -/
  hash : String
  passed : Bool
  passedRecords : List Record
  failedRecords : List Record
  relations : Datalog.Relations
deriving Repr

namespace Evaluation

def ofPolicy (p : Datalog.Policy) (passed : Bool) : Evaluation where
  hash := p.hash
  passed
  passedRecords := p.passed
  failedRecords := p.failed
  relations := p.relations

def relationsJson (relations : Datalog.Relations) : Json :=
  .object (relations.entries.map fun e => (e.1, .array (e.2.map Json.ofStrings)))

def toJson (e : Evaluation) : Json :=
  .object [("policy_hash", .string e.hash), ("passed", .bool e.passed),
    ("passed_policies", recordsJson e.passedRecords),
    ("failed_policies", recordsJson e.failedRecords),
    ("relations", relationsJson e.relations)]

def text (e : Evaluation) : String :=
  line "Policy results:" ++
    String.join (e.relations.entries.map fun relation =>
      line relation.1 ++ String.join (relation.2.map fun row => entry (Relation.rowText row))) ++
    verdictLine e.passed

def render (e : Evaluation) : Style → String
  | .text => e.text
  | .json => line e.toJson.indented

end Evaluation

/-! ### One structural policy -/

structure Validation where
  id : String
  description : String
  target : String
  passed : Bool
deriving DecidableEq, Repr

namespace Validation

def ofPolicy (p : Structural.Policy) (passed : Bool) : Validation where
  id := p.id
  description := p.description
  target := p.target
  passed

def toJson (v : Validation) : Json :=
  .object [("id", .string v.id), ("description", .string v.description),
    ("target", .string v.target), ("passed", .bool v.passed)]

def text (v : Validation) : String :=
  line ((Structural.Policy.new v.id v.description).text ++ ": " ++ verdict v.passed)

def render (v : Validation) : Style → String
  | .text => v.text
  | .json => line v.toJson.indented

end Validation

/-! ### A whole registry -/

structure Check where
  datalogPassed? : Option Bool := none
  passedRecords : List Record := []
  failedRecords : List Record := []
  validation? : Option Validation := none
deriving Repr

namespace Check

def passed (c : Check) : Bool := c.datalogPassed?.getD true && c.validation?.all (·.passed)

def toJson (c : Check) : Json :=
  .object [("datalog_passed", .ofOption (c.datalogPassed?.map .bool)),
    ("passed_policies", recordsJson c.passedRecords),
    ("failed_policies", recordsJson c.failedRecords),
    ("validation", .ofOption (c.validation?.map Validation.toJson))]

def text (c : Check) : String :=
  (if c.datalogPassed?.isSome then
      recordsText "Passed policies:" c.passedRecords ++ recordsText "Failed policies:" c.failedRecords
    else "") ++
    (c.validation?.map Validation.text).getD "" ++ verdictLine c.passed

def render (c : Check) : Style → String
  | .text => c.text
  | .json => line c.toJson.indented

end Check

end PolicyCheck.Report
