import PolicyCheck.Proofs.Structural.Compilation

/-!
# The checks of a tree

Evaluating a tree stops at the first check that does not hold, at whatever depth it stands. All that the
nesting comes to is the order of the checks from left to right: evaluations one after another compose
associatively, so that a tree says what its checks say in one row (`evaluate_eq_evaluateAll_checks`). The
verdict and the log are then read off the row.
-/

namespace PolicyCheck.Structural

theorem Literal.accepts_none (value : Literal) : value.accepts none = false := by
  cases value <;> rfl

inductive Check where
  | literal (path : Path) (value : Literal)
  | absent (path : Path)
deriving DecidableEq, Repr

namespace Check

/-- The path of the value that the check is about. -/
def path : Check → Path
  | .literal path _ | .absent path => path

def node : Check → Node
  | .literal path value => .literal path value
  | .absent path => .absent path

def holds (document : Json) : Check → Bool
  | .literal path value => value.accepts (document.lookup path)
  | .absent path => isFalsy (document.lookup path)

def successLine? : Check → Option (Level × String)
  | .literal path _ => some (.info, path.dotted ++ ": validation successful.")
  | .absent _ => none

def mismatchLine? (document : Json) : Check → Option (Level × String)
  | .literal path value =>
    let got := match document.lookup path with
      | some actual => actual.compact
      | none => "nothing"
    some (.error, path.dotted ++ ": expected " ++ value.text ++ ", got " ++ got)
  | .absent _ => none

theorem forall_mismatchLine?_iff {document : Json} {check : Check} :
    (∀ line ∈ (check.mismatchLine? document).toList, line.1 = .info) ↔ ∃ path, check = .absent path := by
  cases check with
  | literal path value => simp [mismatchLine?]
  | absent path => simp [mismatchLine?]

theorem info_of_successLine? {check : Check} {line : Level × String}
    (h : check.successLine? = some line) : line.1 = .info := by
  cases check with
  | literal path value =>
    cases h
    rfl
  | absent path => cases h

end Check

namespace Node

mutual

def checks : Node → List Check
  | .literal path value => [.literal path value]
  | .absent path => [.absent path]
  | .allOf children => checksOf children

def checksOf : List Node → List Check
  | [] => []
  | child :: children => checks child ++ checksOf children

end

mutual

theorem checkCount_eq_length (node : Node) : node.checkCount = node.checks.length := by
  match node with
  | .literal .. | .absent _ => rfl
  | .allOf children => exact checkCounts_eq_length children

theorem checkCounts_eq_length (nodes : List Node) : checkCounts nodes = (checksOf nodes).length := by
  match nodes with
  | [] => rfl
  | node :: nodes =>
    rw [checkCounts, checksOf, List.length_append, checkCount_eq_length, checkCounts_eq_length]

end

end Node

/-! ### Evaluations one after another -/

namespace Evaluation

def passed : Evaluation := ⟨true, []⟩

/-- One evaluation and then another, unless the first does not hold. -/
def andThen (first rest : Evaluation) : Evaluation :=
  if first.holds then ⟨rest.holds, first.reports ++ rest.reports⟩ else first

theorem passed_andThen (e : Evaluation) : passed.andThen e = e := rfl

theorem andThen_passed (e : Evaluation) : e.andThen passed = e := by
  obtain ⟨holds, reports⟩ := e
  cases holds with
  | false => rfl
  | true =>
    show (⟨true, reports ++ []⟩ : Evaluation) = ⟨true, reports⟩
    rw [List.append_nil]

theorem andThen_assoc (e f g : Evaluation) : (e.andThen f).andThen g = e.andThen (f.andThen g) := by
  obtain ⟨holds, reports⟩ := e
  cases holds with
  | false => rfl
  | true =>
    obtain ⟨holds', reports'⟩ := f
    cases holds' with
    | false => rfl
    | true =>
      show (⟨g.holds, reports ++ reports' ++ g.reports⟩ : Evaluation) =
        ⟨g.holds, reports ++ (reports' ++ g.reports)⟩
      rw [List.append_assoc]

/-- A log of successes with one more line at its end has successes in front of its last line. -/
theorem info_of_mem_dropLast {lines : List (Level × String)} {last? : Option (Level × String)}
    (h : ∀ line ∈ lines, line.1 = .info) :
    ∀ line ∈ (lines ++ last?.toList).dropLast, line.1 = .info := by
  cases last? with
  | none =>
    rw [Option.toList_none, List.append_nil]
    exact fun line hline => h line (List.dropLast_subset _ hline)
  | some last =>
    rw [Option.toList_some, List.dropLast_concat]
    exact h

theorem log_andThen (e f : Evaluation) :
    (e.andThen f).log = if e.holds then e.log ++ f.log else e.log := by
  rw [andThen]
  split
  · exact List.map_append
  · rfl

end Evaluation

namespace Node

variable (document : Json)

theorem evaluateAll_cons (child : Node) (children : List Node) :
    evaluateAll document (child :: children) =
      (evaluate document child).andThen (evaluateAll document children) := by
  rw [evaluateAll]
  rfl

theorem evaluateAll_append (nodes others : List Node) :
    evaluateAll document (nodes ++ others) =
      (evaluateAll document nodes).andThen (evaluateAll document others) := by
  induction nodes with
  | nil =>
    rw [evaluateAll]
    exact (Evaluation.passed_andThen _).symm
  | cons node nodes ih =>
    -- If the first node fails, both sides end with it: that is what associativity says here.
    rw [List.cons_append, evaluateAll_cons, evaluateAll_cons, ih, Evaluation.andThen_assoc]

theorem evaluateAll_singleton (node : Node) : evaluateAll document [node] = evaluate document node := by
  rw [evaluateAll_cons, evaluateAll]
  exact Evaluation.andThen_passed _

mutual

theorem evaluate_eq_evaluateAll_checks (node : Node) :
    evaluate document node = evaluateAll document (node.checks.map Check.node) := by
  match node with
  | .literal .. | .absent _ => exact (evaluateAll_singleton document _).symm
  | .allOf children =>
    rw [evaluate]
    exact evaluateAll_eq_evaluateAll_checks children

theorem evaluateAll_eq_evaluateAll_checks (nodes : List Node) :
    evaluateAll document nodes = evaluateAll document ((checksOf nodes).map Check.node) := by
  match nodes with
  | [] => rfl
  | node :: nodes =>
    rw [checksOf, List.map_append, evaluateAll_append, evaluateAll_cons,
      evaluate_eq_evaluateAll_checks node, evaluateAll_eq_evaluateAll_checks nodes]

end

theorem holds_node (check : Check) : (evaluate document check.node).holds = check.holds document := by
  cases check with
  | literal path value => exact holds_literal document path value
  | absent path => rfl

theorem log_node (check : Check) : (evaluate document check.node).log =
    if check.holds document then check.successLine?.toList else (check.mismatchLine? document).toList := by
  cases check with
  | literal path value =>
    show (evaluate document (.literal path value)).log =
      if value.accepts (document.lookup path) then _ else _
    rw [evaluate]
    cases value.accepts (document.lookup path) <;> rfl
  | absent path =>
    show [] = if isFalsy (document.lookup path) then _ else _
    cases isFalsy (document.lookup path) <;> rfl

theorem holds_row (checks : List Check) : (evaluateAll document (checks.map Check.node)).holds =
    (checks.find? fun check => !check.holds document).isNone := by
  induction checks with
  | nil => rfl
  | cons check checks ih =>
    rw [List.map_cons, holds_allOf_cons, holds_node, ih]
    cases hcheck : check.holds document with
    | true => rw [List.find?_cons_of_neg (by simp [hcheck]), Bool.true_and]
    | false =>
      rw [List.find?_cons_of_pos (by simp [hcheck])]
      rfl

theorem holds_iff_forall_checks (node : Node) :
    node.holds document = true ↔ ∀ check ∈ node.checks, check.holds document = true := by
  rw [holds, evaluate_eq_evaluateAll_checks, holds_row, Option.isNone_iff_eq_none, List.find?_eq_none]
  simp

/-- The log of a row of checks: the checks in front of the first that does not hold, and that one. -/
theorem log_row (checks : List Check) : (evaluateAll document (checks.map Check.node)).log =
    (checks.takeWhile (Check.holds document)).filterMap Check.successLine? ++
      ((checks.find? fun check => !check.holds document).bind (Check.mismatchLine? document)).toList := by
  induction checks with
  | nil => rfl
  | cons check checks ih =>
    rw [List.map_cons, evaluateAll_cons, Evaluation.log_andThen, holds_node, log_node, ih]
    cases hcheck : check.holds document with
    | true =>
      rw [List.takeWhile_cons_of_pos hcheck, List.find?_cons_of_neg (by simp [hcheck])]
      cases check <;> rfl
    | false =>
      rw [List.takeWhile_cons_of_neg (by simp [hcheck]), List.find?_cons_of_pos (by simp [hcheck])]
      rfl

/-- The log of a tree explains its verdict: the checks in front of the first one that does not hold have
written their success, that one its mismatch, and none behind it anything. So a failure ends the log, and
it is missing there exactly if a value was to be absent. -/
theorem log_explains_verdict (node : Node) :
    let passed := node.checks.takeWhile (Check.holds document)
    let failing? := node.checks.find? fun check => !check.holds document
    let e := node.evaluate document
    (e.holds = true ↔ failing? = none) ∧
    e.log = passed.filterMap Check.successLine? ++
      (failing?.bind (Check.mismatchLine? document)).toList ∧
    (∀ line ∈ e.log.dropLast, line.1 = .info) ∧
    (e.holds = false ∧ (∀ line ∈ e.log, line.1 = .info) ↔ ∃ path, failing? = some (.absent path)) := by
  intro passed failing? e
  have hholds : e.holds = failing?.isNone := by
    show (node.evaluate document).holds = _
    rw [evaluate_eq_evaluateAll_checks, holds_row]
  have hlog : e.log = passed.filterMap Check.successLine? ++
      (failing?.bind (Check.mismatchLine? document)).toList := by
    show (node.evaluate document).log = _
    rw [evaluate_eq_evaluateAll_checks, log_row]
  have hinfo : ∀ line ∈ passed.filterMap Check.successLine?, line.1 = .info := by
    intro line hline
    obtain ⟨check, -, hcheck⟩ := List.mem_filterMap.1 hline
    exact Check.info_of_successLine? hcheck
  refine ⟨?_, hlog, ?_, ?_⟩
  · rw [hholds, Option.isNone_iff_eq_none]
  · rw [hlog]
    exact Evaluation.info_of_mem_dropLast hinfo
  · -- The successes are no errors, so what is left to tell is the line of the failing check.
    rw [hlog, hholds, List.forall_mem_append]
    cases failing? with
    | none => simp
    | some check =>
      simp only [Option.bind_some, Option.isNone_some, Option.some_inj, Check.forall_mismatchLine?_iff,
        true_and]
      exact and_iff_right hinfo

example : (evaluate (.object [("a", .bool true)]) (.allOf [
    .allOf [.literal [.key "a"] (.bool true), .absent [.key "b"], .literal [.key "c"] (.bool true)],
    .literal [.key "a"] (.bool true)])).log =
    [(.info, "a: validation successful."), (.error, "c: expected true, got nothing")] := by
  decide +kernel

end Node

end PolicyCheck.Structural
