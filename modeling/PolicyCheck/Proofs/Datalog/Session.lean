import Mathlib.Data.Set.Card
import PolicyCheck.Proofs.Datalog.Program
import PolicyCheck.Proofs.Json.Record
import PolicyCheck.Text.Utf8

/-!
# Programs in a session

Any number of programs under names, built up step by step from lists, from single lines, from each
other and from JSON texts. Beside the programs a record is kept of the lines that each step contributes
to each part; it knows nothing of order or repetition. Every part of every program is then the one
ascending list of the lines on record, so that a program, and with it its text, depends on nothing else.
-/

namespace PolicyCheck.Datalog.Program

variable {p q r : Program} {ps qs : List Program} {i : Part} {line : String}

/-! ### Merging -/

theorem merge_assoc (p q r : Program) : (p.merge q).merge r = p.merge (q.merge r) :=
  ext_of_mem_part fun i line => by simp only [mem_part_merge, or_assoc]

theorem merge_comm (p q : Program) : p.merge q = q.merge p :=
  ext_of_mem_part fun i line => by simp only [mem_part_merge, or_comm]

theorem merge_self (p : Program) : p.merge p = p :=
  ext_of_mem_part fun i line => by simp only [mem_part_merge, or_self]

theorem not_mem_part_empty : line ∉ (∅ : Program).part i := by
  cases i with
  | declarations | directives | rules => exact LineSet.not_mem_empty line

theorem merge_empty (p : Program) : p.merge ∅ = p :=
  ext_of_mem_part fun i line => by simp only [mem_part_merge, not_mem_part_empty, or_false]

theorem mem_part_collect : line ∈ (collect ps).part i ↔ ∃ p ∈ ps, line ∈ p.part i := by
  rw [collect, mem_part_foldl_merge]
  simp only [not_mem_part_empty, false_or]

/-! ### Lines one by one -/

def add (p : Program) (line : String) : Part → Program
  | .declarations => p.declare line
  | .directives => p.direct line
  | .rules => p.rule line

theorem mem_part_add {j : Part} {x : String} :
    x ∈ (p.add line j).part i ↔ (j = i ∧ x = line) ∨ x ∈ p.part i := by
  cases i <;> cases j <;> simp [add, declare, direct, rule, part]

/-! ### Programs in JSON texts -/

def ofSections (sections : Part → List String) : Program :=
  ofLists (sections .declarations) (sections .directives) (sections .rules)

theorem mem_part_ofSections {sections : Part → List String} :
    line ∈ (ofSections sections).part i ↔ line ∈ sections i := by
  cases i with
  | declarations | directives | rules => exact LineSet.mem_ofList

def Part.name : Part → String
  | .declarations => "declarations"
  | .directives => "directives"
  | .rules => "rules"

/-- A JSON value lists the lines of each part: in an object with one field for each part, whatever its
other fields are, or in an array of the three. -/
inductive Lists : Json.Syntax → (Part → List String) → Prop
  | object {fields : List (Option String × Json.Syntax)} {sections : Part → List String}
    (named : ∀ field ∈ fields, field.1.isSome = true)
    (given : ∀ i : Part, (fields.filter fun field => field.1 == some i.name) =
      [(some i.name, .ofStrings (sections i))]) : Lists (.object fields) sections
  | array (sections : Part → List String) :
    Lists (.array [.ofStrings (sections .declarations), .ofStrings (sections .directives),
      .ofStrings (sections .rules)]) sections

theorem lists_iff_record? {value : Json.Syntax} {sections : Part → List String} :
    Lists value sections ↔
      value.record? ["declarations", "directives", "rules"] =
        some ([.ofStrings (sections .declarations), .ofStrings (sections .directives),
          .ofStrings (sections .rules)].map some) := by
  rw [Json.Syntax.record?_eq_some_map_some_iff]
  simp only [List.forall₂_cons, List.forall₂_nil_left_iff, and_true]
  constructor
  · rintro (⟨hnamed, hgiven⟩ | _)
    · exact .inl ⟨_, rfl, hnamed, hgiven .declarations, hgiven .directives, hgiven .rules⟩
    · exact .inr ⟨rfl, rfl⟩
  · rintro (⟨fields, rfl, hnamed, hdeclarations, hdirectives, hrules⟩ | ⟨rfl, -⟩)
    · refine .object hnamed fun i => ?_
      cases i with
      | declarations => exact hdeclarations
      | directives => exact hdirectives
      | rules => exact hrules
    · exact .array sections

theorem section?_eq_some_iff {field : Option Json.Syntax} {lines : List String} :
    Json.Syntax.required? (Json.Syntax.list? Json.Syntax.string?) field = some lines ↔
      field = some (.ofStrings lines) := by
  rw [Json.Syntax.required?, Option.bind_eq_some_iff]
  simp only [Json.Syntax.list?_string?_eq_some_iff, exists_eq_right]

theorem ofSyntax?_eq_some_iff {value : Json.Syntax} :
    ofSyntax? value = some p ↔ ∃ sections, Lists value sections ∧ p = ofSections sections := by
  constructor
  · intro h
    obtain ⟨fields, hfields, hread⟩ := Option.bind_eq_some_iff.1 h
    split at hread
    · obtain ⟨declarations, hdeclarations, hrest⟩ := Option.bind_eq_some_iff.1 hread
      obtain ⟨directives, hdirectives, hrest⟩ := Option.bind_eq_some_iff.1 hrest
      obtain ⟨rules, hrules, hp⟩ := Option.bind_eq_some_iff.1 hrest
      rw [section?_eq_some_iff] at hdeclarations hdirectives hrules
      rw [hdeclarations, hdirectives, hrules] at hfields
      let sections : Part → List String
        | .declarations => declarations
        | .directives => directives
        | .rules => rules
      exact ⟨sections, lists_iff_record?.2 hfields, (Option.some.inj hp).symm⟩
    · cases hread
  · rintro ⟨sections, hlists, rfl⟩
    have hsection (i : Part) : Json.Syntax.required? (Json.Syntax.list? Json.Syntax.string?)
        (some (.ofStrings (sections i))) = some (sections i) := section?_eq_some_iff.2 rfl
    refine Option.bind_eq_some_iff.2 ⟨_, lists_iff_record?.1 hlists, ?_⟩
    refine Option.bind_eq_some_iff.2 ⟨_, hsection .declarations, ?_⟩
    refine Option.bind_eq_some_iff.2 ⟨_, hsection .directives, ?_⟩
    exact Option.bind_eq_some_iff.2 ⟨_, hsection .rules, rfl⟩

/-! ### Steps -/

/-- The lines that have been contributed to a program, part by part. -/
abbrev Contribution := Part → Set String

/-- A step of a session. Each step makes one program, the one under its first name. -/
inductive Step where
  | fromParts (name : String) (sections : Part → List String)
  | add (name : String) (i : Part) (line : String)
  /-- Another program is merged into one; it may be the same one. -/
  | update (name other : String)
  | merge (name first second : String)
  | extend (name : String) (others : List String)
  | collect (name : String) (others : List String)
  /-- A program is read from a JSON text; it stays as it is if none can be read. -/
  | deserialize (name text : String)

def ofJsonText? (text : String) : Option Program := (Json.Syntax.ofText? text).bind ofSyntax?

namespace Step

def name : Step → String
  | .fromParts name _ | .add name .. | .update name _ | .merge name .. | .extend name _
  | .collect name _ | .deserialize name _ => name

/-- The program that the step makes out of those before it. -/
def result (programs : String → Program) : Step → Program
  | .fromParts _ sections => ofSections sections
  | .add name i line => (programs name).add line i
  | .update name other => (programs name).merge (programs other)
  | .merge _ first second => (programs first).merge (programs second)
  | .extend name others => (others.map programs).foldl Program.merge (programs name)
  | .collect _ others => Program.collect (others.map programs)
  | .deserialize name text => (ofJsonText? text).getD (programs name)

def Reads (text : String) (sections : Part → List String) : Prop :=
  ∃ value, Json.Syntax.ofText? text = some value ∧ Lists value sections

/-- The lines that the program of the step has been contributed by then. -/
def lines (contributed : String → Contribution) (i : Part) : Step → Set String
  | .fromParts _ sections => {line | line ∈ sections i}
  | .add name j line => {x | (j = i ∧ x = line) ∨ x ∈ contributed name i}
  | .update name other => contributed name i ∪ contributed other i
  | .merge _ first second => contributed first i ∪ contributed second i
  | .extend name others => contributed name i ∪ {line | ∃ other ∈ others, line ∈ contributed other i}
  | .collect _ others => {line | ∃ other ∈ others, line ∈ contributed other i}
  | .deserialize name text =>
    {line | (∃ sections, Reads text sections ∧ line ∈ sections i) ∨
      (¬ ∃ sections, Reads text sections) ∧ line ∈ contributed name i}

end Step

/-- The programs after the steps of a session; every name stands for the empty program at first. -/
def afterSteps (steps : List Step) : String → Program :=
  steps.foldl (fun programs step => Function.update programs step.name (step.result programs)) fun _ => ∅

/-- The lines that have been contributed to each program by the steps of a session. -/
def contributed (steps : List Step) : String → Contribution :=
  steps.foldl (fun lines step => Function.update lines step.name fun i => step.lines lines i) fun _ _ => ∅

theorem ofJsonText?_eq_some_iff {text : String} :
    ofJsonText? text = some p ↔ ∃ sections, Step.Reads text sections ∧ p = ofSections sections := by
  rw [ofJsonText?, Option.bind_eq_some_iff]
  simp only [ofSyntax?_eq_some_iff]
  constructor
  · rintro ⟨value, hvalue, sections, hlists, hp⟩
    exact ⟨sections, ⟨value, hvalue, hlists⟩, hp⟩
  · rintro ⟨sections, ⟨value, hvalue, hlists⟩, hp⟩
    exact ⟨value, hvalue, sections, hlists, hp⟩

theorem mem_part_ofJsonText? {text : String} (hread : ofJsonText? text = some p) :
    line ∈ p.part i ↔ ∃ sections, Step.Reads text sections ∧ line ∈ sections i := by
  constructor
  · intro hline
    obtain ⟨sections, hsections, rfl⟩ := ofJsonText?_eq_some_iff.1 hread
    exact ⟨sections, hsections, mem_part_ofSections.1 hline⟩
  · rintro ⟨sections, hsections, hline⟩
    have hread' := ofJsonText?_eq_some_iff.2 ⟨sections, hsections, rfl⟩
    rw [Option.some.inj (hread.symm.trans hread')]
    exact mem_part_ofSections.2 hline

theorem not_reads_of_ofJsonText? {text : String} (hread : ofJsonText? text = none)
    (sections : Part → List String) : ¬ Step.Reads text sections := by
  intro hsections
  cases hread.symm.trans (ofJsonText?_eq_some_iff.2 ⟨sections, hsections, rfl⟩)

theorem Step.mem_part_result {programs : String → Program} {lines : String → Contribution}
    (h : ∀ name i line, line ∈ (programs name).part i ↔ line ∈ lines name i) (step : Step) (i : Part)
    (line : String) : line ∈ (step.result programs).part i ↔ line ∈ step.lines lines i := by
  have hmap (others : List String) : (∃ q ∈ others.map programs, line ∈ q.part i) ↔
      ∃ other ∈ others, line ∈ lines other i := by
    simp only [List.mem_map, exists_exists_and_eq_and, h]
  cases step with
  | fromParts name sections => exact mem_part_ofSections
  | add name j added =>
    rw [result, mem_part_add, h]
    rfl
  | update name other | merge name first second =>
    rw [result, mem_part_merge, h, h]
    rfl
  | extend name others =>
    rw [result, mem_part_foldl_merge, h, hmap]
    rfl
  | collect name others =>
    rw [result, mem_part_collect, hmap]
    rfl
  | deserialize name text =>
    rw [result]
    change _ ↔ (∃ sections, Reads text sections ∧ line ∈ sections i) ∨
      (¬ ∃ sections, Reads text sections) ∧ line ∈ lines name i
    cases hread : ofJsonText? text with
    | none =>
      have hnone := not_reads_of_ofJsonText? hread
      rw [Option.getD_none, h]
      simp [hnone]
    | some p =>
      obtain ⟨sections, hsections, -⟩ := ofJsonText?_eq_some_iff.1 hread
      have hsome : ∃ sections, Reads text sections := ⟨sections, hsections⟩
      rw [Option.getD_some, mem_part_ofJsonText? hread]
      simp [hsome]

theorem mem_part_afterSteps (steps : List Step) (name : String) (i : Part) (line : String) :
    line ∈ (afterSteps steps name).part i ↔ line ∈ contributed steps name i := by
  -- The steps are taken from the last one back, as both sides are folds from the first.
  induction steps using List.reverseRecOn generalizing name i line with
  | nil => exact iff_of_false not_mem_part_empty (Set.notMem_empty line)
  | append_singleton steps step ih =>
    rw [afterSteps, contributed, List.foldl_append, List.foldl_append]
    change line ∈ (Function.update (afterSteps steps) step.name (step.result (afterSteps steps)) name).part i ↔
      line ∈ Function.update (contributed steps) step.name (fun i => step.lines (contributed steps) i) name i
    rcases eq_or_ne name step.name with rfl | hname
    · rw [Function.update_self, Function.update_self]
      exact step.mem_part_result ih i line
    · rw [Function.update_of_ne hname, Function.update_of_ne hname]
      exact ih name i line

/-- A set of lines has as many lines as have been contributed to it, each counted once. -/
theorem size_eq_ncard {s : LineSet} {lines : Set String} (h : ∀ line, line ∈ s ↔ line ∈ lines) :
    s.size = lines.ncard := by
  have hset : lines = (s.lines.toFinset : Set String) := by
    ext line
    rw [List.coe_toFinset]
    exact (h line).symm
  have hnodup : s.lines.Nodup := by
    refine s.ascending.imp ?_
    rintro line _ hlt rfl
    exact String.lt_irrefl line hlt
  rw [hset, Set.ncard_coe_finset, List.toFinset_card_of_nodup hnodup, LineSet.size]

theorem collect_congr (h : ∀ q, q ∈ ps ↔ q ∈ qs) : collect ps = collect qs := foldl_merge_congr h

/-- Whatever the steps of a session have been, every part of every program is the ascending list of just
the lines that have been contributed to it. -/
theorem afterSteps_canonical :
    (∀ (steps : List Step) (name : String),
      let p := afterSteps steps name
      (∀ i, (p.part i).lines.Pairwise (fun a b => a.toList < b.toList) ∧
        ∀ line, line ∈ (p.part i).lines ↔ line ∈ contributed steps name i) ∧
      p.size = (contributed steps name .declarations).ncard + (contributed steps name .directives).ncard +
        (contributed steps name .rules).ncard ∧
      p.text = "\n".intercalate
        ((p.part .declarations).lines ++ (p.part .directives).lines ++ (p.part .rules).lines)) ∧
    (∀ p q r : Program, (p.merge q).merge r = p.merge (q.merge r) ∧ p.merge q = q.merge p ∧
      p.merge p = p ∧ p.merge ∅ = p ∧ (∅ : Program).merge p = p) ∧
    (∀ ps qs : List Program, (∀ q, q ∈ ps ↔ q ∈ qs) → collect ps = collect qs) ∧
    ∀ (steps steps' : List Step) (name name' : String),
      contributed steps name = contributed steps' name' →
        afterSteps steps name = afterSteps steps' name' ∧
          Text.Utf8.encode (afterSteps steps name).text.toList =
            Text.Utf8.encode (afterSteps steps' name').text.toList := by
  refine ⟨fun steps name => ⟨fun i => ⟨?_, ?_⟩, ?_, rfl⟩, fun p q r => ?_, fun ps qs => collect_congr, ?_⟩
  · exact ((afterSteps steps name).part i).ascending
  · exact mem_part_afterSteps steps name i
  · have hsize (i : Part) := size_eq_ncard (mem_part_afterSteps steps name i)
    rw [← hsize .declarations, ← hsize .directives, ← hsize .rules]
    rfl
  · exact ⟨merge_assoc p q r, merge_comm p q, merge_self p, merge_empty p,
      (merge_comm ∅ p).trans (merge_empty p)⟩
  · intro steps steps' name name' hsame
    have heq : afterSteps steps name = afterSteps steps' name' := by
      refine ext_of_mem_part fun i line => ?_
      rw [mem_part_afterSteps, mem_part_afterSteps, hsame]
    exact ⟨heq, congrArg (fun p : Program => Text.Utf8.encode p.text.toList) heq⟩

/-! ### Two rules, line by line and from a text -/

namespace Session

/-- Two rules are added one by one, and the program is merged into itself. -/
def lineByLine : List Step := [.add "p" .rules "b.", .add "p" .rules "a.", .update "p" "p"]

/-- A program is read from a text and merged with itself under another name. -/
def fromText : List Step := [.deserialize "q" "[[],[],[\"b.\",\"a.\",\"b.\"]]", .merge "r" "q" "q"]

def bothRules : Program := ofLists [] [] ["a.", "b."]

theorem ofJsonText?_text : ofJsonText? "[[],[],[\"b.\",\"a.\",\"b.\"]]" = some bothRules := by decide +kernel

theorem contributed_eq : contributed lineByLine "p" = contributed fromText "r" := by
  funext i
  ext line
  have htext : line ∈ bothRules.part i ↔ _ := mem_part_ofJsonText? ofJsonText?_text
  obtain ⟨sections, hsections, -⟩ := ofJsonText?_eq_some_iff.1 ofJsonText?_text
  have hsome : ∃ sections, Step.Reads "[[],[],[\"b.\",\"a.\",\"b.\"]]" sections := ⟨sections, hsections⟩
  have hrules : line ∈ bothRules.part i ↔ Part.rules = i ∧ line = "a." ∨ Part.rules = i ∧ line = "b." := by
    cases i <;> simp [bothRules, part, ofLists]
  simp only [contributed, lineByLine, fromText, List.foldl_cons, List.foldl_nil, Step.name, Step.lines,
    Function.update_self]
  simp [← htext, hsome, hrules]

end Session

open Session in
theorem afterSteps_canonical_rearranged :
    contributed lineByLine "p" = contributed fromText "r" ∧
    afterSteps lineByLine "p" = afterSteps fromText "r" ∧
    (∀ q, q ∈ [bothRules, ∅, bothRules] ↔ q ∈ [∅, bothRules]) ∧
    collect [bothRules, ∅, bothRules] = collect [∅, bothRules] := by
  obtain ⟨-, -, hcollect, hsame⟩ := afterSteps_canonical
  have hmem (q : Program) : q ∈ [bothRules, ∅, bothRules] ↔ q ∈ [∅, bothRules] := by
    simp only [List.mem_cons, List.not_mem_nil]
    tauto
  exact ⟨contributed_eq, (hsame lineByLine fromText "p" "r" contributed_eq).1, hmem, hcollect _ _ hmem⟩

end PolicyCheck.Datalog.Program
