import Mathlib.Data.List.Sort
import PolicyCheck.Datalog.Clause

/-!
# Programs as sets of lines

A program is known by the lines of its three parts: two programs with the same lines are equal, and so
have one text. Merging joins the lines part by part, so that neither the order nor the repetition of
programs matters. The program of an outline has the lines of each outline that it was put together from.
-/

namespace PolicyCheck.Datalog

theorem LineSet.ext_of_mem {s t : LineSet} (h : ∀ line, line ∈ s ↔ line ∈ t) : s = t := by
  obtain ⟨lines, hascending⟩ := s
  obtain ⟨lines', hascending'⟩ := t
  obtain rfl : lines = lines' := hascending.eq_of_mem_iff hascending' h
  rfl

/-- The lines of a set that meet a condition are those of any set with just these members. -/
theorem LineSet.filter_lines_eq {s t : LineSet} {keep : String → Bool}
    (h : ∀ line, line ∈ t ↔ line ∈ s ∧ keep line = true) : s.lines.filter keep = t.lines := by
  refine (s.ascending.filter keep).eq_of_mem_iff t.ascending fun line => ?_
  rw [List.mem_filter]
  exact (h line).symm

namespace Program

inductive Part where
  | declarations
  | directives
  | rules

def part (p : Program) : Part → LineSet
  | .declarations => p.declarations
  | .directives => p.directives
  | .rules => p.rules

variable {p q : Program} {ps qs : List Program} {i : Part} {line : String}

theorem ext_of_mem_part (h : ∀ i line, line ∈ p.part i ↔ line ∈ q.part i) : p = q := by
  obtain ⟨declarations, directives, rules⟩ := p
  obtain ⟨declarations', directives', rules'⟩ := q
  obtain rfl : declarations = declarations' := LineSet.ext_of_mem (h .declarations)
  obtain rfl : directives = directives' := LineSet.ext_of_mem (h .directives)
  obtain rfl : rules = rules' := LineSet.ext_of_mem (h .rules)
  rfl

theorem part_merge (p q : Program) (i : Part) : (p.merge q).part i = p.part i ∪ q.part i := by
  cases i with
  | declarations | directives | rules => rfl

theorem mem_part_merge : line ∈ (p.merge q).part i ↔ line ∈ p.part i ∨ line ∈ q.part i := by
  rw [part_merge, LineSet.mem_union]

theorem mem_part_foldl_merge :
    line ∈ (qs.foldl merge p).part i ↔ line ∈ p.part i ∨ ∃ q ∈ qs, line ∈ q.part i := by
  induction qs generalizing p with
  | nil => simp
  | cons q qs ih => rw [List.foldl_cons, ih, mem_part_merge, List.exists_mem_cons_iff, or_assoc]

theorem foldl_merge_congr (h : ∀ q, q ∈ ps ↔ q ∈ qs) : ps.foldl merge p = qs.foldl merge p := by
  refine ext_of_mem_part fun i line => ?_
  simp only [mem_part_foldl_merge, h]

end Program

namespace Outline

variable {o p : Outline} {os : List Outline} {i : Program.Part} {line : String}

theorem mem_part_program_append :
    line ∈ (o ++ p).program.part i ↔ line ∈ o.program.part i ∨ line ∈ p.program.part i := by
  have happend : o ++ p = o.append p := rfl
  cases i with
  | declarations | directives =>
    simp only [Program.part, program, Program.ofLists, happend, append, List.map_append,
      LineSet.mem_ofList, List.mem_append]
  | rules =>
    simp only [Program.part, program, Program.ofLists, happend, append, List.map_append,
      LineSet.mem_ofList, List.mem_append]
    exact or_or_or_comm

theorem mem_part_program_concat :
    line ∈ (concat os).program.part i ↔ ∃ o ∈ os, line ∈ o.program.part i := by
  induction os with
  | nil =>
    cases i with
    | declarations | directives | rules => simp [concat, program, Program.part, Program.ofLists]
  | cons o os ih =>
    change line ∈ (o ++ concat os).program.part i ↔ _
    rw [mem_part_program_append, ih, List.exists_mem_cons_iff]

end Outline

end PolicyCheck.Datalog
