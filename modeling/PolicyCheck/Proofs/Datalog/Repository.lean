import Mathlib.Data.List.Dedup
import PolicyCheck.Proofs.Datalog.Evaluation
import PolicyCheck.Proofs.Interpreter.Deed

/-!
# Verdicts about one repository

The repository of a call decides which failed records count and nothing else: the program, the run and
the records that are kept are the same for every choice. So the verdicts about all repositories come
from one list of failed records, which is cut into parts in the same way when the records about a
repository are asked for. A repository in a record is an integer of 64 bits, so that each record counts
for some verdict that can be asked for.
-/

namespace PolicyCheck.Datalog

namespace Record

/-- The repository of a record that is read from a row is an integer of 64 bits. -/
theorem fitsInt64_of_ofRow {row : Row} {record : Record} (h : ofRow row = .ok record) :
    Text.FitsInt64 record.repository := by
  have hcell {cell : String} {n : Int} (hcell : readRepository cell = .ok n) : Text.FitsInt64 n := by
    rw [readRepository] at hcell
    split at hcell
    · rename_i hread
      obtain rfl := Except.ok.inj hcell
      exact of_decide_eq_true (Option.filter_eq_some_iff.1 hread).2
    · cases hcell
  rw [ofRow.eq_def] at h
  split at h
  · obtain ⟨n, hn, h⟩ := bind_eq_ok_iff.1 h
    obtain rfl := Except.ok.inj h
    exact hcell hn
  · obtain ⟨n, hn, h⟩ := bind_eq_ok_iff.1 h
    obtain rfl := Except.ok.inj h
    exact hcell hn
  · cases h

theorem Listed.fitsInt64 {relations : Relations} {name : String} {records : List Record}
    (h : Listed relations name records) : ∀ record ∈ records, Text.FitsInt64 record.repository := by
  intro record hrecord
  obtain ⟨row, -, hrow⟩ := exists_mem_of_forall₂_right h hrecord
  exact fitsInt64_of_ofRow hrow

/-! ### Records by repository -/

/-- Lists by repository are the parts of a list of records: each part has its records in the order of
the list, the parts of the given repositories make up the list, and a record is in the part of its own
repository as often as in the list, and in no other. -/
structure Partition (records : List Record) (repositories : List Int) (part : Int → List Record) :
    Prop where
  sublist : ∀ r, (part r).Sublist records
  perm : (repositories.flatMap part).Perm records
  count : ∀ record r, (part r).count record = if record.repository = r then records.count record else 0

def about (records : List Record) (r : Int) : List Record := records.filter (·.concerns (some r))

theorem mem_about {records : List Record} {r : Int} {record : Record} :
    record ∈ about records r ↔ record ∈ records ∧ record.repository = r := by
  simp [about, concerns]

theorem perm_about {records : List Record} {repositories : List Int} (hnodup : repositories.Nodup)
    (hall : ∀ record ∈ records, record.repository ∈ repositories) :
    (repositories.flatMap (about records)).Perm records := by
  induction repositories generalizing records with
  | nil =>
    rw [List.eq_nil_iff_forall_not_mem.2 fun record hrecord => List.not_mem_nil (hall record hrecord)]
    exact .nil
  | cons r repositories ih =>
    obtain ⟨hr, hnodup⟩ := List.nodup_cons.1 hnodup
    let others := records.filter fun record => !record.concerns (some r)
    have hothers : repositories.flatMap (about records) = repositories.flatMap (about others) := by
      refine List.flatMap_congr fun r' hr' => ?_
      have hne : r' ≠ r := fun heq => hr (heq ▸ hr')
      rw [about, about, List.filter_filter]
      refine List.filter_congr fun record _ => ?_
      by_cases hr' : record.repository = r' <;> simp [concerns, hr', hne]
    have hrest : ∀ record ∈ others, record.repository ∈ repositories := by
      intro record hrecord
      obtain ⟨hmem, hnot⟩ := List.mem_filter.1 hrecord
      refine (List.mem_cons.1 (hall record hmem)).resolve_left fun heq => ?_
      simp [concerns, heq] at hnot
    rw [List.flatMap_cons, hothers]
    exact ((ih hnodup hrest).append_left _).trans (List.filter_append_perm _ records)

theorem partition_about {records : List Record} {repositories : List Int} (hnodup : repositories.Nodup)
    (hall : ∀ record ∈ records, record.repository ∈ repositories) :
    Partition records repositories (about records) := by
  refine ⟨fun r => List.filter_sublist, perm_about hnodup hall, fun record r => ?_⟩
  by_cases hr : record.repository = r
  · rw [if_pos hr]
    exact List.count_filter (by simp [concerns, hr])
  · rw [if_neg hr]
    exact List.count_eq_zero.2 fun hmem => hr (mem_about.1 hmem).2

end Record

namespace Policy

/-- The repositories that occur in the records of the last evaluation. -/
def repositories (p : Policy) : List Int := ((p.passed ++ p.failed).map Record.repository).dedup

theorem mem_repositories {p : Policy} {r : Int} :
    r ∈ p.repositories ↔ ∃ record, (record ∈ p.passed ∨ record ∈ p.failed) ∧ record.repository = r := by
  rw [repositories, List.mem_dedup, List.mem_map]
  simp only [List.mem_append]

theorem resultsFor_of_isEvaluated {p : Policy} (h : p.isEvaluated = true) (r : Int) :
    p.resultsFor r = .ok (Record.about p.passed r, Record.about p.failed r) := by
  obtain ⟨results, hresults⟩ := Option.isSome_iff_exists.1 h
  rw [resultsFor, passed, failed, hresults]
  rfl

namespace Call

variable {c : Call} {p : Policy}

def about (c : Call) (repository? : Option Int) : Call := { c with repository? }

/-- The run of the call delivers relations, and both result relations can be read. -/
def Usable (c : Call) (p : Policy) : Prop :=
  ∃ program relations, c.program p = .ok program ∧ p.Delivers program c.host relations ∧
    ¬ Unreadable relations

/-- The choice of a repository and the results of earlier evaluations leave no trace in a policy that is
evaluated. -/
theorem after_about (hprogram : ∃ program, c.program p = .ok program) (repository? : Option Int)
    (results? : Option Results) : (c.about repository?).after { p with results? } = c.after p := by
  obtain ⟨program, hprogram⟩ := hprogram
  have hchosen : (c.about repository?).program { p with results? } = .ok program := hprogram
  have hrun : (({ p with results? } : Policy).run program).on (c.about repository?).host =
      (p.run program).on c.host := rfl
  rw [after, after, outcome_eq, outcome_eq, hprogram, hchosen]
  simp only [hrun]
  cases ((p.run program).on c.host).1.bind Results.ofRelations with
  | ok results => rfl
  | error e => rfl

theorem answer_with (results? : Option Results) : c.answer { p with results? } = c.answer p := by
  have hprogram : c.program { p with results? } = c.program p := rfl
  rw [answer, answer, outcome_eq, outcome_eq, hprogram]
  cases c.program p with
  | error e => rfl
  | ok program =>
    have hrun : (({ p with results? } : Policy).run program).on c.host = (p.run program).on c.host := rfl
    simp only [hrun]
    cases ((p.run program).on c.host).1.bind Results.ofRelations with
    | ok results => rfl
    | error e => rfl

theorem exists_program_of_answer (h : ∀ e, c.answer p ≠ .error e) : ∃ program, c.program p = .ok program := by
  cases hprogram : c.program p with
  | error e =>
    obtain ⟨_, -, hanswer, -⟩ := refused_of_error hprogram
    exact absurd hanswer (h _)
  | ok program => exact ⟨program, rfl⟩

theorem Usable.decided (h : c.Usable p) (repository? : Option Int) : (c.about repository?).Decided p := by
  obtain ⟨program, relations, hprogram, hdelivers, hread⟩ := h
  exact decided_of_delivers hprogram hdelivers hread

theorem failed_of_not_usable (h : ¬ c.Usable p) (hprogram : ∃ program, c.program p = .ok program)
    (repository? : Option Int) : (c.about repository?).Failed p := by
  obtain ⟨program, hprogram⟩ := hprogram
  rcases (c.about repository?).course (p := p) with hrefused | hfailed | hdecided
  · obtain ⟨e, herror, -⟩ := hrefused
    cases hprogram.symm.trans herror
  · exact hfailed
  · obtain ⟨program, relations, -, hprogram, hdelivers, hread, -⟩ := hdecided
    exact absurd ⟨program, relations, hprogram, hdelivers, hread⟩ h

theorem Usable.answer_eq_true_iff (h : c.Usable p) (repository? : Option Int) :
    (c.about repository?).answer p = .ok true ↔
      ∀ record ∈ (c.after p).failed, ∃ r ∈ repository?, record.repository ≠ r := by
  obtain ⟨program, relations, verdict, hprogram, -, -, hanswer, -, -, -, -, hverdict⟩ := h.decided repository?
  have hsame : ∃ program, c.program p = .ok program := ⟨program, hprogram⟩
  have hafter : (c.about repository?).after p = c.after p := after_about hsame repository? p.results?
  rw [hafter] at hverdict
  rw [hanswer, Except.ok.injEq, hverdict]
  simp only [not_exists, not_and, not_forall, exists_prop]
  rfl

theorem Usable.fitsInt64 (h : c.Usable p) :
    ∀ record ∈ (c.after p).failed, Text.FitsInt64 record.repository := by
  obtain ⟨program, relations, verdict, -, -, -, -, -, -, -, hfailed, -⟩ := h.decided c.repository?
  exact hfailed.fitsInt64

/-- A verdict about all repositories holds if the verdict about each does, as every failed record is about
one that can be asked for. -/
theorem Usable.answer_none_iff (h : c.Usable p) : (c.about none).answer p = .ok true ↔
    ∀ r, Text.FitsInt64 r → (c.about (some r)).answer p = .ok true := by
  simp only [h.answer_eq_true_iff]
  constructor
  · intro hnone r _ record hrecord
    obtain ⟨_, hr, -⟩ := hnone record hrecord
    cases hr
  · intro hall record hrecord
    obtain ⟨_, hr, hne⟩ := hall _ (h.fitsInt64 record hrecord) record hrecord
    exact absurd (Option.some.inj hr) hne

theorem Usable.answer_some_iff (h : c.Usable p) (r : Int) :
    (c.about (some r)).answer p = .ok true ↔ Record.about (c.after p).failed r = [] := by
  rw [h.answer_eq_true_iff, List.eq_nil_iff_forall_not_mem]
  simp only [Record.mem_about, not_and, Option.mem_some_iff, exists_eq_left', ne_eq]

/-- The verdicts about one repository and the records about it fit the verdict about all of them. -/
theorem answers_fit (c : Call) (p : Policy) (h : ∀ e, c.answer p ≠ .error e) :
    (∀ repository? results?, (∃ verdict, (c.about repository?).answer p = .ok verdict) ∧
      (c.about repository?).answer { p with results? } = (c.about repository?).answer p ∧
      (c.about repository?).after { p with results? } = c.after p) ∧
    (c.Usable p →
      ((c.about none).answer p = .ok true ↔
        ∀ r, Text.FitsInt64 r → (c.about (some r)).answer p = .ok true) ∧
      ∃ passed failed : Int → List Record,
        (∀ r, (c.after p).resultsFor r = .ok (passed r, failed r)) ∧
        (∀ r, (c.about (some r)).answer p = .ok true ↔ failed r = []) ∧
        (c.after p).repositories.Nodup ∧
        Record.Partition (c.after p).passed (c.after p).repositories passed ∧
        Record.Partition (c.after p).failed (c.after p).repositories failed) ∧
    (¬ c.Usable p → (∀ repository?, (c.about repository?).answer p = .ok false) ∧
      ∀ r, (c.after p).resultsFor r = .ok ([], [])) := by
  have hprogram := exists_program_of_answer h
  refine ⟨fun repository? results? => ⟨?_, answer_with results?, after_about hprogram repository? results?⟩,
    fun husable => ⟨husable.answer_none_iff, Record.about (c.after p).passed,
      Record.about (c.after p).failed, ?_, husable.answer_some_iff, List.nodup_dedup _, ?_, ?_⟩,
    fun hnot => ⟨fun repository? => ?_, ?_⟩⟩
  · by_cases husable : c.Usable p
    · obtain ⟨_, _, verdict, -, -, -, hanswer, -⟩ := husable.decided repository?
      exact ⟨verdict, hanswer⟩
    · obtain ⟨_, -, -, hanswer, -⟩ := failed_of_not_usable husable hprogram repository?
      exact ⟨false, hanswer⟩
  · obtain ⟨_, _, _, -, -, -, -, hevaluated, -⟩ := husable.decided c.repository?
    exact resultsFor_of_isEvaluated hevaluated
  · exact Record.partition_about (List.nodup_dedup _)
      fun record hrecord => mem_repositories.2 ⟨record, .inl hrecord, rfl⟩
  · exact Record.partition_about (List.nodup_dedup _)
      fun record hrecord => mem_repositories.2 ⟨record, .inr hrecord, rfl⟩
  · obtain ⟨_, -, -, hanswer, -⟩ := failed_of_not_usable hnot hprogram repository?
    exact hanswer
  · obtain ⟨_, -, -, -, hevaluated, -, hpassed, hfailed⟩ := failed_of_not_usable hnot hprogram c.repository?
    have hafter : (c.about c.repository?).after p = c.after p := rfl
    rw [hafter] at hevaluated hpassed hfailed
    intro r
    rw [resultsFor_of_isEvaluated hevaluated, hpassed, hfailed]
    rfl

/-! ### A failed record about one of two repositories -/

namespace TwoRepositories

open Interpreter (Deed performing)

/-- The deed of an interpreter that writes one failed record twice, and a passed one. -/
def deed : Deed where
  status := 0
  stderr := []
  files := [("failed_policies.csv", Text.Utf8.encode "p\t1\np\t1\n".toList),
    ("passed_policies.csv", Text.Utf8.encode "p\t2\n".toList)]
  plain := by decide +kernel
  distinct := by decide

def host : Host where
  files := ⟨[(["souffle"], .file [] true), (["tmp"], .directory)]⟩
  behaviour := performing fun _ _ => .ok deed

def policy : Policy := { text := "// a", settings := { binary := ⟨"/souffle"⟩ } }

def everywhere : Call := ⟨⟨"/db"⟩, ⟨[]⟩, none, host⟩

def nowhere : Call := ⟨⟨"/db"⟩, ⟨[]⟩, none, {}⟩

theorem program_everywhere : ∃ program, everywhere.program policy = .ok program := by
  have hprogram : (everywhere.program policy).toOption.isSome = true := by decide +kernel
  obtain ⟨program, hsome⟩ := Option.isSome_iff_exists.1 hprogram
  exact ⟨program, toOption_eq_some_iff.1 hsome⟩

theorem failed_everywhere : (everywhere.after policy).failed ≠ [] := by decide +kernel

theorem usable_everywhere : everywhere.Usable policy := by
  by_contra hnot
  obtain ⟨_, -, -, -, -, -, -, hfailed⟩ := failed_of_not_usable hnot program_everywhere none
  exact failed_everywhere hfailed

theorem answer_nowhere : nowhere.answer policy = .ok false ∧ (nowhere.after policy).failed = [] := by
  have hrun : ((nowhere.answer policy).toOption, (nowhere.after policy).failed) = (some false, []) := by
    decide +kernel
  obtain ⟨hanswer, hfailed⟩ := Prod.mk.inj hrun
  exact ⟨toOption_eq_some_iff.1 hanswer, hfailed⟩

end TwoRepositories

open TwoRepositories in
theorem answers_fit_two :
    (∀ e, everywhere.answer policy ≠ .error e) ∧ everywhere.Usable policy ∧
    (everywhere.about none).answer policy ≠ .ok true ∧
    (∃ r, Text.FitsInt64 r ∧ (everywhere.about (some r)).answer policy ≠ .ok true) ∧
    (∀ e, nowhere.answer policy ≠ .error e) ∧ ¬ nowhere.Usable policy ∧
    ∀ r, (nowhere.after policy).resultsFor r = .ok ([], []) := by
  have heverywhere : ∀ e, everywhere.answer policy ≠ .error e := by
    obtain ⟨_, _, _, -, -, -, hanswer, -⟩ := usable_everywhere.decided none
    exact fun e he => nomatch hanswer.symm.trans he
  have hfails : (everywhere.about none).answer policy ≠ .ok true := by
    rw [Ne, usable_everywhere.answer_eq_true_iff]
    intro hnone
    obtain ⟨record, hrecord⟩ := List.exists_mem_of_ne_nil _ failed_everywhere
    obtain ⟨_, hr, -⟩ := hnone record hrecord
    cases hr
  obtain ⟨hnowhere, hnone⟩ := answer_nowhere
  have hanswered : ∀ e, nowhere.answer policy ≠ .error e := fun e he => by cases hnowhere.symm.trans he
  have hunusable : ¬ nowhere.Usable policy := by
    intro husable
    have htrue := (husable.answer_eq_true_iff none).2 (hnone ▸ List.forall_mem_nil _)
    cases hnowhere.symm.trans htrue
  obtain ⟨-, hfit, -⟩ := answers_fit everywhere policy heverywhere
  obtain ⟨-, -, hempty⟩ := answers_fit nowhere policy hanswered
  have hsome := (not_congr (hfit usable_everywhere).1).1 hfails
  simp only [not_forall, exists_prop] at hsome
  exact ⟨heverywhere, usable_everywhere, hfails, hsome, hanswered, hunusable, (hempty hunusable).2⟩

end Call

end Policy

end PolicyCheck.Datalog
