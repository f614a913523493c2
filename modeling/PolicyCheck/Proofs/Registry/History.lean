import PolicyCheck.Proofs.Registry.Isolation
import PolicyCheck.Proofs.Registry.Lasting

/-!
# What a registry shows

The registry keeps a verdict beside the results that each of its policies keeps. The last evaluation
that was answered, unless a Datalog policy has been added after it, is what both are of: it is followed
here along every way in which a registry comes about, and whatever the registry shows is then read off
the calls of that evaluation. Interpreters may end as they like and write what they like to their output
directories: an evaluation with such an interpreter is lasting (`lasting_of_performing`). One that takes the
working directory away may cut an evaluation with a relative database short, which leaves the policies up
to then with new results beside the old verdict; an evaluation without an answer is therefore taken to be
lasting.
-/

namespace PolicyCheck

open Datalog (Policy Record)
open Datalog.Policy (Call)

namespace Datalog.Policy.Call

variable {c : Call} {p : Policy}

end Datalog.Policy.Call

namespace Registry

/-- An evaluation that was answered: what was asked and on which host, the Datalog policies that the
registry had at the time, and the records in the answer. -/
structure Evaluation where
  call : Call
  policies : List Policy
  failed : List Record

namespace Evaluation

def calls (e : Evaluation) : List (Call × Policy) := Registry.calls e.call e.policies

def results (e : Evaluation) : List Policy := e.calls.map fun call => call.1.after call.2

end Evaluation

/-- A registry that comes about, and the last evaluation that was answered unless a Datalog policy has
been added after it. What came before either does not matter. -/
inductive History : Registry → Option Evaluation → Prop
  | empty : History {} none
  | loaded (h : Host) (settings : Interpreter.Settings) (paths : List FilePath) :
    History (ofFiles h settings paths) none
  | addStructural {r : Registry} {last? : Option Evaluation} (history : History r last?)
    (p : Structural.Policy) : History (r.addStructural p) last?
  | addDatalog (r : Registry) (p : Policy) : History (r.addDatalog p) none
  | answered {r : Registry} (c : Call) {failed : List Record} (answer : r.answer c = .ok failed) :
    History (r.after c) (some ⟨c, r.datalog, failed⟩)
  | refused {r : Registry} {last? : Option Evaluation} (history : History r last?) (c : Call)
    (lasting : r.Lasting c) {e : Error} (answer : r.answer c = .error e) : History (r.after c) last?

variable {r : Registry} {c : Call} {last? : Option Evaluation} {e : Evaluation}

/-! ### Registries that have not been evaluated -/

theorem notEvaluated (h : r.verdict? = none) :
    r.datalogPassed = .error .notEvaluated ∧ ∀ repository?, r.results repository? = .error .notEvaluated := by
  refine ⟨by rw [datalogPassed, h], fun repository? => ?_⟩
  rw [results, isEvaluated, h]
  rfl

/-! ### Registries that have been evaluated -/

/-- The registry is what an evaluation has left: its policies are those that were called, and its
verdict is that all of the calls held. -/
structure Left (r : Registry) (e : Evaluation) : Prop where
  datalog : r.datalog = e.results
  verdict : ∃ verdicts, Answers e.calls verdicts ∧ r.verdict? = some (verdicts.all id)
  failed : e.failed = e.results.flatMap Policy.failed

theorem left_of_answer {failed : List Record} (h : r.answer c = .ok failed) :
    (r.after c).Left ⟨c, r.datalog, failed⟩ := by
  obtain ⟨verdicts, left, hverdicts, houtcome⟩ := outcome_of_ready (ready_of_answer h)
  rw [answer, houtcome] at h
  obtain rfl := Except.ok.inj h
  rw [after, houtcome]
  refine ⟨rfl, ⟨verdicts, hverdicts, rfl⟩, ?_⟩
  rw [Evaluation.results, List.flatMap_map]
  rfl

def Evaluation.passed (e : Evaluation) : List Record := e.results.flatMap Policy.passed

theorem Left.datalogPassed (h : r.Left e) :
    ∃ verdicts, Answers e.calls verdicts ∧ r.datalogPassed = .ok (verdicts.all id) := by
  obtain ⟨verdicts, hverdicts, hverdict⟩ := h.verdict
  exact ⟨verdicts, hverdicts, by rw [Registry.datalogPassed, hverdict]⟩

theorem Left.results (h : r.Left e) (repository? : Option Int) :
    r.results repository? = .ok (e.passed.filter (·.concerns repository?),
      e.failed.filter (·.concerns repository?)) := by
  obtain ⟨verdicts, -, hverdict⟩ := h.verdict
  have hevaluated : r.isEvaluated = true := by rw [isEvaluated, hverdict, Option.isSome_some]
  rw [Registry.results, if_pos hevaluated, h.datalog, h.failed, Evaluation.passed, List.filter_flatMap,
    List.filter_flatMap]

namespace Shown

open Pair

def added : Registry := addDatalog {} (fresh own "// a")

/-- An evaluation for a repository other than that of the record that the interpreter writes. -/
def elsewhere : Call := ⟨⟨"/db"⟩, ⟨[]⟩, some 2, host⟩

def nowhere : Call := ⟨⟨"/db"⟩, ⟨[]⟩, none, {}⟩

theorem history : History added none := .addDatalog {} _

theorem answer_nowhere :
    added.answer nowhere = .ok [] ∧ (added.after nowhere).verdict? = some false := by
  have hrun : ((added.answer nowhere).toOption, (added.after nowhere).verdict?) = (some [], some false) := by
    decide +kernel
  obtain ⟨hanswer, hverdict⟩ := Prod.mk.inj hrun
  exact ⟨toOption_eq_some_iff.1 hanswer, hverdict⟩

end Shown

end Registry

end PolicyCheck
