import PolicyCheck.Proofs.Datalog.Attachment
import PolicyCheck.Proofs.Datalog.Session
import PolicyCheck.Proofs.Fact.Visit

/-!
# Facts in a set of lines

A program keeps its rules in a set, in which equal lines count once. The facts about a document stay
apart there: the steps around the core of a term give back the path of its leaf as long as no key is
changed by `escape`, and a fact can be read off its line. Those about two documents stay apart by the
label or the number.
-/

namespace PolicyCheck

theorem Datalog.LineSet.size_eq_length {s : LineSet} {lines : List String} (hlines : lines.Nodup)
    (h : ∀ line, line ∈ s ↔ line ∈ lines) : s.size = lines.length :=
  ((List.perm_ext_iff_of_nodup s.ascending.nodup hlines).2 h).length_eq

namespace Fact

/-- Whether a document is one that can be read, and none of the keys on the way to its leaves holds a
double quote or a line break. -/
structure PlainlyKeyed (document : Json) : Prop where
  sound : document.Sound
  ordered : document.Ordered
  quotable : ∀ leaf ∈ document.leaves, ∀ name, Step.key name ∈ leaf.1 → Quotable name

variable {document : Json} {label : String} {id : Int}

theorem PlainlyKeyed.map_steps_terms (h : PlainlyKeyed document) :
    (terms [] document).map (fun t => t.steps.reverse) = document.leaves.map Prod.fst := by
  have hterms : List.Forall₂ (fun leaf t => leaf ∈ document.leaves ∧ IsTermOf leaf t)
      document.leaves (terms [] document) :=
    (List.forall₂_and_left _ _).2 ⟨fun leaf hleaf => hleaf, isTermOf_terms [] document⟩
  rw [← List.forall₂_eq_eq_eq, List.forall₂_map_left_iff, List.forall₂_map_right_iff]
  refine hterms.flip.imp fun t leaf hparts => ?_
  obtain ⟨hleaf, terminal, hterminal, rfl⟩ := hparts
  obtain ⟨hsteps, -⟩ := Term.steps_core_ofScalar hterminal
  rw [Term.steps_wrap, hsteps, List.append_nil, List.reverse_reverse,
    escaped_of_quotable (h.quotable leaf hleaf)]

theorem PlainlyKeyed.nodup_statements (h : PlainlyKeyed document) (label : String) (id : Int) :
    (statements document label id).Nodup := by
  have hterms : (terms [] document).Nodup := by
    apply List.Nodup.of_map (fun t => t.steps.reverse)
    rw [h.map_steps_terms]
    exact h.ordered.nodup_paths
  refine hterms.map fun t t' heq => ?_
  exact congrArg Statement.term heq

theorem PlainlyKeyed.text_inj (h : PlainlyKeyed document) {document' : Json}
    (h' : PlainlyKeyed document') {label' : String} {id' : Int} {s s' : Statement}
    (hs : s ∈ statements document label id) (hs' : s' ∈ statements document' label' id')
    (heq : s.text = s'.text) : s = s' :=
  (reads_of_mem_statements h.sound hs).unique (reads_of_mem_statements h'.sound hs') heq

end Fact

namespace Datalog

variable {attachments : List Attachment}

def Attachment.statements (attachments : List Attachment) : List Fact.Statement :=
  attachments.flatMap fun a => Fact.statements a.document a.label a.id

theorem Attachment.mem_rules_collect {line : String} :
    line ∈ (Program.collect (attachments.map program)).rules ↔
      line ∈ (statements attachments).map Fact.Statement.text := by
  have hmem : line ∈ (Program.collect (attachments.map program)).part .rules ↔ _ :=
    Program.mem_part_collect
  refine hmem.trans ?_
  simp only [List.mem_map, exists_exists_and_eq_and, Policy.mem_part_program, true_and, Fact.lines,
    statements, List.mem_flatMap]
  constructor
  · rintro ⟨a, ha, s, hs, hline⟩
    exact ⟨s, ⟨a, ha, hs⟩, hline⟩
  · rintro ⟨s, ⟨a, ha, hs⟩, hline⟩
    exact ⟨a, ha, s, hs, hline⟩

theorem Attachment.nodup_statements (h : ∀ a ∈ attachments, Fact.PlainlyKeyed a.document)
    (hnames : (attachments.map fun a => (Fact.escape a.label, a.id)).Nodup) :
    (statements attachments).Nodup := by
  refine List.nodup_flatMap.2 ⟨fun a ha => (h a ha).nodup_statements a.label a.id, ?_⟩
  refine (List.pairwise_map.1 hnames).imp fun {a b} hne => ?_
  refine List.disjoint_left.2 fun s hs hs' => hne ?_
  -- A fact holds the label and the number of its document.
  obtain ⟨_, -, _, -, rfl⟩ := Fact.mem_statements.1 hs
  obtain ⟨_, -, _, -, heq⟩ := Fact.mem_statements.1 hs'
  obtain ⟨hlabel, hid, -⟩ := Fact.Statement.mk.inj heq
  rw [hlabel, hid]

theorem Attachment.nodup_texts (h : ∀ a ∈ attachments, Fact.PlainlyKeyed a.document)
    (hnames : (attachments.map fun a => (Fact.escape a.label, a.id)).Nodup) :
    ((statements attachments).map Fact.Statement.text).Nodup := by
  refine List.Nodup.map_on (fun s hs s' hs' heq => ?_) (nodup_statements h hnames)
  obtain ⟨a, ha, hs⟩ := List.mem_flatMap.1 hs
  obtain ⟨b, hb, hs'⟩ := List.mem_flatMap.1 hs'
  exact (h a ha).text_inj (h b hb) hs hs' heq

theorem Attachment.length_statements (attachments : List Attachment) :
    (statements attachments).length = (attachments.map fun a => a.document.leafCount).sum := by
  rw [statements, List.length_flatMap]
  simp only [Fact.length_statements]

theorem Attachment.size_collect (h : ∀ a ∈ attachments, Fact.PlainlyKeyed a.document)
    (hnames : (attachments.map fun a => (Fact.escape a.label, a.id)).Nodup) :
    (Program.collect (attachments.map program)).rules.size =
      (attachments.map fun a => a.document.leafCount).sum := by
  rw [LineSet.size_eq_length (nodup_texts h hnames) fun line => mem_rules_collect, List.length_map,
    length_statements]

/-- No leaf is lost. The program about a document has a rule for each of its scalars, and the program
about several documents, each under a label or a number of its own, has one for each of theirs. -/
theorem size_rules_facts :
    (∀ document, Fact.PlainlyKeyed document → ∀ label id,
      (Fact.program document label id).rules.size = document.leafCount) ∧
    (∀ attachments : List Attachment, (∀ a ∈ attachments, Fact.PlainlyKeyed a.document) →
      (attachments.map fun a => (Fact.escape a.label, a.id)).Nodup →
      (Program.collect (attachments.map Attachment.program)).rules.size =
        (attachments.map fun a => a.document.leafCount).sum) := by
  constructor
  · intro document hdocument label id
    let a : Attachment := ⟨label, id, document⟩
    have hcollect : Program.collect [a.program] = a.program :=
      (Program.merge_comm ∅ a.program).trans a.program.merge_empty
    have hsize := Attachment.size_collect (List.forall_mem_singleton.2 hdocument : ∀ b ∈ [a], _)
      (List.nodup_singleton _)
    rw [List.map_singleton, List.map_singleton, hcollect, List.sum_singleton] at hsize
    exact hsize
  · intro attachments h hnames
    exact Attachment.size_collect h hnames

def doubled : Json := .array [.string "a\"\n", .string "a\"\n"]

theorem plainlyKeyed_doubled : Fact.PlainlyKeyed doubled where
  sound := .array (List.forall_mem_cons.2 ⟨.string _, List.forall_mem_singleton.2 (.string _)⟩)
  ordered := .array (List.forall_mem_cons.2 ⟨.string _, List.forall_mem_singleton.2 (.string _)⟩)
  quotable := by
    have hleaves : doubled.leaves =
        [([.index 0], .string "a\"\n"), ([.index 1], .string "a\"\n")] := rfl
    rw [hleaves]
    simp

theorem size_rules_facts_doubled :
    Fact.PlainlyKeyed doubled ∧ (Fact.program doubled "p" 7).rules.size = 2 ∧
    ([("p", 7), ("p", 8)] : List (String × Int)).Nodup ∧
    (Program.collect [Fact.program doubled "p" 7, Fact.program doubled "p" 8]).rules.size = 4 := by
  obtain ⟨hone, hall⟩ := size_rules_facts
  have hnames : ([("p", 7), ("p", 8)] : List (String × Int)).Nodup := by decide
  refine ⟨plainlyKeyed_doubled, hone _ plainlyKeyed_doubled "p" 7, hnames, ?_⟩
  refine hall [⟨"p", 7, doubled⟩, ⟨"p", 8, doubled⟩] ?_ hnames
  exact List.forall_mem_cons.2 ⟨plainlyKeyed_doubled, List.forall_mem_singleton.2 plainlyKeyed_doubled⟩

end Datalog

end PolicyCheck
