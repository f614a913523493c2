import PolicyCheck.Proofs.Datalog.ProgramText
import PolicyCheck.Proofs.Fact.Reading
import PolicyCheck.Proofs.Schema.RuleLine

/-!
# Attached documents

What is attached to a policy adds facts to its program and does nothing else. A fact stands on a line of
its own, whatever the document holds, and opens as no rule of a schema with plain names does. So the
lines of the program without the documents are those that are left when the facts are taken out of the
rules of the generated program.
-/

namespace PolicyCheck

open Text (OneLine textLines oneLine_append)

/-! ### The lines of facts -/

namespace Fact

theorem Term.not_mem_ofNumber (n : Number) {c : Char} (hc : c = '\n' ∨ c = '\t') :
    c ∉ (ofNumber n).text.toList := by
  have hdigit : c.isDigit = false := by rcases hc with rfl | rfl <;> rfl
  have hsigns : c ≠ '-' ∧ c ≠ '.' := by rcases hc with rfl | rfl <;> decide
  have hmarks : c ∉ "$Int(".toList ∧ c ∉ "$Float(".toList ∧ c ∉ ")".toList := by
    rcases hc with rfl | rfl <;> decide
  rw [ofNumber]
  split
  · rename_i value hvalue
    have hdigits := (Text.isInteger_toString value).not_mem hdigit hsigns.1
    simp only [text, String.toList_append, List.mem_append, hmarks, hdigits, or_self, not_false_eq_true]
  · have hfraction : c ∉ (floatText n.toDouble).toList := by
      cases hdouble : n.toDouble with
      | nan => rcases hc with rfl | rfl <;> decide +kernel
      | infinite negative => rcases hc with rfl | rfl <;> cases negative <;> decide +kernel
      | finite negative mantissa scale => exact (isFraction_floatText rfl).not_mem hdigit hsigns.1 hsigns.2
    simp only [text, String.toList_append, List.mem_append, hmarks, hfraction, or_self, not_false_eq_true]

theorem Term.oneLine_ofScalar {scalar : Json} {t : Term} (h : ofScalar? scalar = some t) :
    OneLine t.text := by
  cases scalar with
  | null =>
    cases h
    simp [OneLine, text]
  | bool b =>
    cases h
    cases b <;> simp [OneLine, text]
  | number n =>
    cases h
    exact not_mem_ofNumber n (.inl rfl)
  | string content =>
    cases h
    have hmarks : OneLine "$String(\"" ∧ OneLine "\")" := by simp [OneLine]
    have hcontent : OneLine (escape content) := (quotable_escape content).2
    simp only [text, oneLine_append, hmarks, hcontent, and_self]
  | array items => cases h
  | object fields => cases h

theorem Term.oneLine_under {t : Term} (h : OneLine t.text) (step : Step) : OneLine (t.under step).text := by
  have hmarks : OneLine "$Object(\"" ∧ OneLine "\", " ∧ OneLine "$Array(" ∧ OneLine ", " ∧ OneLine ")" := by
    simp [OneLine]
  cases step with
  | key name =>
    have hname : OneLine (escape name) := (quotable_escape name).2
    simp only [under, text, oneLine_append, hmarks, hname, h, and_self]
  | index position =>
    have hdigits : OneLine (toString position) := (Text.digits_toString position).not_mem rfl
    simp only [under, text, oneLine_append, hmarks, hdigits, h, and_self]

theorem Term.oneLine_wrap {t : Term} (h : OneLine t.text) (path : Path) : OneLine (t.wrap path).text := by
  induction path generalizing t with
  | nil => exact h
  | cons step path ih => exact ih (oneLine_under h step)

/-- A fact stands on one line between the relation and the closing mark, whatever the document holds. -/
theorem line_of_mem_lines {document : Json} {label line : String} {id : Int}
    (h : line ∈ lines document label id) :
    OneLine line ∧ "json(\"".toList <+: line.toList ∧ ").".toList <:+ line.toList := by
  obtain ⟨s, hs, rfl⟩ := List.mem_map.1 h
  obtain ⟨leaf, -, t, ⟨terminal, hterminal, rfl⟩, rfl⟩ := mem_statements.1 hs
  refine ⟨?_, ?_, ?_⟩
  · have hmarks : OneLine relation ∧ OneLine "(\"" ∧ OneLine "\"," ∧ OneLine "," ∧ OneLine ")." := by
      simp [OneLine, relation]
    have hlabel : OneLine (escape label) := (quotable_escape label).2
    have hdigits : OneLine (toString id) := (Text.isInteger_toString id).not_mem rfl (by decide)
    have hterm := Term.oneLine_wrap (Term.oneLine_ofScalar hterminal) leaf.1
    simp only [Statement.text, oneLine_append, hmarks, hlabel, hdigits, hterm, and_self]
  · refine ⟨(escape label ++ "\"," ++ toString id ++ "," ++ (terminal.wrap leaf.1).text ++ ").").toList, ?_⟩
    simp [Statement.text, relation]
  · rw [Statement.text, String.toList_append]
    exact List.suffix_append _ _

theorem opens_of_mem_lines {document : Json} {label line : String} {id : Int}
    (h : line ∈ lines document label id) : Datalog.Opens relation line := by
  obtain ⟨-, ⟨rest, hrest⟩, -⟩ := line_of_mem_lines h
  refine ⟨"\"" ++ String.ofList rest, String.toList_inj.1 ?_⟩
  rw [← hrest]
  simp [relation]

end Fact

namespace Datalog.Policy

variable {p : Policy} {q : Program} {line : String}

def facts (p : Policy) : List String :=
  p.attachments.flatMap fun a => Fact.lines a.document a.label a.id

def detached (p : Policy) : Policy := { p with attachments := [] }

theorem textOver_detached (p : Policy) (q : Program) :
    p.detached.textOver (p.detached.withFacts q) = p.textOver q := rfl

theorem mem_part_program {a : Attachment} {i : Program.Part} :
    line ∈ a.program.part i ↔ i = .rules ∧ line ∈ Fact.lines a.document a.label a.id := by
  cases i with
  | declarations | directives =>
    simp [Attachment.program, Fact.program, Program.ofLists, Program.part]
  | rules => simp [Attachment.program, Fact.program, Program.ofLists, Program.part]

theorem mem_part_withFacts {i : Program.Part} :
    line ∈ (p.withFacts q).part i ↔ line ∈ q.part i ∨ i = .rules ∧ line ∈ p.facts := by
  rw [withFacts, Program.mem_part_foldl_merge]
  refine or_congr Iff.rfl ?_
  simp only [List.mem_map, exists_exists_and_eq_and, mem_part_program, facts, List.mem_flatMap]
  exact ⟨fun ⟨a, ha, hi, hline⟩ => ⟨hi, a, ha, hline⟩, fun ⟨hi, a, ha, hline⟩ => ⟨a, ha, hi, hline⟩⟩

theorem mem_rules_withFacts : line ∈ (p.withFacts q).rules ↔ line ∈ q.rules ∨ line ∈ p.facts := by
  have hmem : line ∈ (p.withFacts q).part .rules ↔ _ := mem_part_withFacts
  exact hmem.trans (or_congr Iff.rfl (and_iff_right rfl))

theorem part_withFacts {i : Program.Part} (hi : i ≠ .rules) : (p.withFacts q).part i = q.part i := by
  refine LineSet.ext_of_mem fun line => ?_
  rw [mem_part_withFacts]
  exact or_iff_left fun h => hi h.1

theorem filter_rules_withFacts (hforeign : ∀ line ∈ q.rules, line ∉ p.facts) :
    (p.withFacts q).rules.lines.filter (fun line => line ∉ p.facts) = q.rules.lines := by
  refine LineSet.filter_lines_eq fun line => ?_
  rw [decide_eq_true_eq, mem_rules_withFacts]
  exact ⟨fun hline => ⟨.inl hline, hforeign line hline⟩, fun ⟨hline, hnot⟩ => hline.resolve_right hnot⟩

def linesBefore (q : Program) : List String :=
  (PreludeFile.all.map PreludeFile.text).flatMap textLines ++
    (q.declarations.lines ++ q.directives.lines).flatMap textLines

theorem linesBefore_withFacts (p : Policy) (q : Program) : linesBefore (p.withFacts q) = linesBefore q := by
  have hdeclarations : (p.withFacts q).declarations = q.declarations := part_withFacts (i := .declarations) nofun
  have hdirectives : (p.withFacts q).directives = q.directives := part_withFacts (i := .directives) nofun
  rw [linesBefore, hdeclarations, hdirectives, linesBefore]

theorem textOver_eq (p : Policy) (q : Program) :
    p.textOver q = String.join ((PreludeFile.all.map PreludeFile.text ++ [q.text]).map (· ++ "\n")) ++
      (p.text ++ "\n") := by
  simp [textOver, String.append_assoc]

/-- The lines of the text: those before the rules, the rules one by one, and those of the policy. -/
theorem textLines_textOver (hnonempty : q.declarations.lines ≠ [])
    (hrules : ∀ line ∈ q.rules, OneLine line) :
    textLines (p.textOver q) = linesBefore q ++ q.rules.lines ++ textLines (p.text ++ "\n") := by
  have hgenerated : textLines q.text =
      (q.declarations.lines ++ q.directives.lines).flatMap textLines ++ q.rules.lines := by
    have hlines : q.lines ≠ [] := by
      rw [Program.lines, List.append_assoc]
      exact List.append_ne_nil_of_left_ne_nil hnonempty _
    rw [Program.text, Text.textLines_intercalate hlines, Program.lines, List.flatMap_append,
      Text.flatMap_textLines hrules]
  rw [textOver_eq, Text.textLines_join, List.flatMap_append, List.flatMap_singleton, hgenerated,
    linesBefore]
  simp only [List.append_assoc]

/-! ### Programs of schemas with plain names -/

section PlainlyNamed

variable {database : String} {s : Schema}

theorem declarations_ne_nil (hq : s.generated database = .ok q) : q.declarations.lines ≠ [] := by
  have hnames : (Declaration.names Table.checkName "check").text ∈
      Schema.pivotDeclarations.program.part .declarations :=
    LineSet.mem_ofList.2 (List.mem_map_of_mem (List.mem_cons_of_mem _ List.mem_cons_self))
  exact List.ne_nil_of_mem ((Schema.mem_part_generated hq).2 ⟨_, .pivot, hnames⟩)

theorem rule_of_plainlyNamed (hs : ∀ t ∈ s.tables, t.PlainlyNamed)
    (hq : s.generated database = .ok q) (hline : line ∈ q.rules) : OneLine line ∧ line ∉ p.facts := by
  have hplain (t : Table) (ht : t ∈ s.factTables) : t.PlainlyNamed := hs t (List.mem_filter.1 ht).1
  obtain ⟨hone, t, ht, relation, hrelation, hopens⟩ := Schema.opens_of_mem_rules hplain hq hline
  refine ⟨hone, fun hfact => ?_⟩
  obtain ⟨a, -, ha⟩ := List.mem_flatMap.1 hfact
  -- The line of a fact opens with the relation of facts, and no rule has that relation in its head.
  have hsame : Fact.relation = relation := (Fact.opens_of_mem_lines ha).unique hopens
    (by decide +kernel) (((hplain t ht).headRelation hrelation).not_mem rfl (by decide))
  exact t.not_headRelation_fact (hsame ▸ hrelation)

end PlainlyNamed

/-- Over a schema with plain names, a policy with documents has a program if and only if it has one
without them. The lines of the two programs are the same but for the facts among the rules of the
generated program, each of which is one whole line, and both end with the text of the policy. -/
theorem textLines_programText (p : Policy) (database : FilePath) {s : Schema}
    (hs : ∀ t ∈ s.tables, t.PlainlyNamed) :
    ((∃ text, p.programText database s = .ok text) ↔
      ∃ bare, p.detached.programText database s = .ok bare) ∧
    ∀ text bare, p.programText database s = .ok text →
      p.detached.programText database s = .ok bare →
        ∃ generated front, p.generated database s = .ok generated ∧
          textLines text = front ++ generated.rules.lines ++ textLines (p.text ++ "\n") ∧
          textLines bare = front ++ generated.rules.lines.filter (fun line => line ∉ p.facts) ++
            textLines (p.text ++ "\n") ∧
          (∀ fact ∈ p.facts, fact ∈ generated.rules.lines ∧ "json(\"".toList <+: fact.toList ∧
            ").".toList <:+ fact.toList) ∧
          (p.text ++ "\n").toList <:+ text.toList ∧ (p.text ++ "\n").toList <:+ bare.toList := by
  refine ⟨by rw [exists_programText_iff, exists_programText_iff], fun text bare htext hbare => ?_⟩
  rw [programText_eq] at htext hbare
  -- Both texts are laid around the program of the schema, with the facts and without them.
  obtain ⟨q, hq, rfl⟩ := map_eq_ok_iff.1 htext
  obtain ⟨q', hq', rfl⟩ := map_eq_ok_iff.1 hbare
  obtain rfl := Except.ok.inj (hq'.symm.trans hq)
  rw [textOver_detached]
  have hplain (line : String) (hline : line ∈ q'.rules) : OneLine line :=
    (rule_of_plainlyNamed (p := p) hs hq hline).1
  have hforeign (line : String) (hline : line ∈ q'.rules) : line ∉ p.facts :=
    (rule_of_plainlyNamed hs hq hline).2
  have hfact (line : String) (hline : line ∈ p.facts) : OneLine line ∧
      "json(\"".toList <+: line.toList ∧ ").".toList <:+ line.toList := by
    obtain ⟨a, -, ha⟩ := List.mem_flatMap.1 hline
    exact Fact.line_of_mem_lines ha
  have hone (line : String) (hline : line ∈ (p.withFacts q').rules) : OneLine line :=
    (mem_rules_withFacts.1 hline).elim (hplain line) fun hline => (hfact line hline).1
  have hdeclarations : (p.withFacts q').declarations.lines ≠ [] := by
    have hsame : (p.withFacts q').declarations = q'.declarations := part_withFacts (i := .declarations) nofun
    rw [hsame]
    exact declarations_ne_nil hq
  have hgenerated : p.generated database s = .ok (p.withFacts q') := by
    rw [generated_eq, hq]
    rfl
  have htail (g : Program) : (p.text ++ "\n").toList <:+ (p.textOver g).toList := by
    rw [textOver_eq]
    exact ⟨_, String.toList_append.symm⟩
  refine ⟨p.withFacts q', linesBefore q', hgenerated, ?_, ?_, fun fact hmem => ?_, htail _, htail q'⟩
  · rw [textLines_textOver hdeclarations hone, linesBefore_withFacts]
  · rw [filter_rules_withFacts hforeign, textLines_textOver (declarations_ne_nil hq) hplain]
  · exact ⟨mem_rules_withFacts.2 (.inr hmem), (hfact fact hmem).2⟩

/-- A document and a label that look like the text around them. -/
def disguised : Policy where
  text := "passed_policies(\"p\", 1).\njson(\"x\",1,$Null)."
  attachments := [⟨"p\"\n", 7, .object [("k\n", .string "$Null).\njson(\"q\",1,$Null).")]⟩]

theorem plainlyNamed_checks : Rearranged.checks.PlainlyNamed where
  table := by simp [IsIdentifier, Rearranged.checks]
  columns := by simp [IsIdentifier, Rearranged.checks]

theorem textLines_programText_disguised :
    (∀ t ∈ (Schema.mk [Rearranged.checks]).tables, t.PlainlyNamed) ∧
    disguised.facts =
      ["json(\"p'\\n\",7,$Object(\"k\\n\", $String(\"$Null).\\njson('q',1,$Null).\")))."] ∧
    ∃ text bare, disguised.programText ⟨"/db"⟩ ⟨[Rearranged.checks]⟩ = .ok text ∧
      disguised.detached.programText ⟨"/db"⟩ ⟨[Rearranged.checks]⟩ = .ok bare ∧
      ∃ generated front, disguised.generated ⟨"/db"⟩ ⟨[Rearranged.checks]⟩ = .ok generated ∧
        textLines text = front ++ generated.rules.lines ++ textLines (disguised.text ++ "\n") ∧
        textLines bare = front ++ generated.rules.lines.filter (fun line => line ∉ disguised.facts) ++
          textLines (disguised.text ++ "\n") ∧
        ∀ fact ∈ disguised.facts, fact ∈ generated.rules.lines := by
  have hnamed : ∀ t ∈ (Schema.mk [Rearranged.checks]).tables, t.PlainlyNamed :=
    List.forall_mem_singleton.2 plainlyNamed_checks
  have hcompiled : ∀ t ∈ (Schema.mk [Rearranged.checks]).factTables, t.Supported := fun t ht =>
    Rearranged.supported (List.mem_singleton.1 (List.mem_filter.1 ht).1 ▸ List.mem_cons_self)
  obtain ⟨hiff, hlines⟩ := textLines_programText disguised ⟨"/db"⟩ hnamed
  obtain ⟨text, htext⟩ : ∃ text, disguised.programText ⟨"/db"⟩ ⟨[Rearranged.checks]⟩ = .ok text :=
    exists_programText_iff.2 hcompiled
  obtain ⟨bare, hbare⟩ := hiff.1 ⟨text, htext⟩
  obtain ⟨generated, front, hgenerated, hwith, hwithout, hfacts, -⟩ := hlines text bare htext hbare
  exact ⟨hnamed, by decide +kernel, text, bare, htext, hbare, generated, front, hgenerated, hwith,
    hwithout, fun fact hfact => (hfacts fact hfact).1⟩

end Datalog.Policy

end PolicyCheck
