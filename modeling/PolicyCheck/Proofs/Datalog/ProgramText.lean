import PolicyCheck.Datalog.Policy
import PolicyCheck.Proofs.Schema.Contribution

/-!
# The text of a program

The text that goes to the interpreter is the prelude, the generated program and the text of the policy,
in this order. There is one if and only if the schema can be compiled: neither the policy nor its
documents can fail. As the generated program is a set of lines in each of its parts, the text depends
on the set of fact tables and on the set of attached documents alone.
-/

namespace PolicyCheck.Datalog.Policy

variable {p : Policy} {database : FilePath} {s s' : Schema} {attachments : List Attachment}

def textOver (p : Policy) (generated : Program) : String :=
  String.join ((PreludeFile.all.map PreludeFile.text ++ [generated.text, p.text]).map (· ++ "\n"))

/-- The facts about the attached documents on top of the program of a schema. -/
def withFacts (p : Policy) (q : Program) : Program :=
  (p.attachments.map Attachment.program).foldl .merge q

theorem generated_eq (p : Policy) (database : FilePath) (s : Schema) :
    p.generated database s = (s.generated database.text).map p.withFacts := by
  rw [generated]
  cases s.generated database.text <;> rfl

theorem programText_eq (p : Policy) (database : FilePath) (s : Schema) :
    p.programText database s = (s.generated database.text).map fun q => p.textOver (p.withFacts q) := by
  rw [programText, generated_eq]
  cases s.generated database.text <;> rfl

theorem exists_programText_iff :
    (∃ text, p.programText database s = .ok text) ↔ ∀ t ∈ s.factTables, t.Supported := by
  rw [programText_eq, ← Schema.exists_generated_iff database.text]
  cases s.generated database.text <;> simp [Except.map]

/-- There is a program if the database has an absolute path and the schema can be compiled. -/
theorem exists_programAt_iff {h : Host} :
    (∃ program, p.programAt h database s = .ok program) ↔
      (∃ path, h.resolve database = .ok path) ∧ ∀ t ∈ s.factTables, t.Supported := by
  rw [programAt]
  cases h.resolve database with
  | error cause =>
    constructor
    · rintro ⟨_, hprogram⟩
      cases hprogram
    · rintro ⟨⟨_, hpath⟩, -⟩
      cases hpath
  | ok path =>
    rw [and_iff_right ⟨path, rfl⟩]
    exact exists_programText_iff

theorem withFacts_congr (h : ∀ a, a ∈ attachments ↔ a ∈ p.attachments) (q : Program) :
    withFacts { p with attachments } q = p.withFacts q := by
  refine Program.foldl_merge_congr fun fact => ?_
  simp only [List.mem_map, h]

/-- Compiling is a homomorphism from lists of tables to merged programs, and therefore the tables of a
schema and the documents of a policy can be permuted and repeated, and tables without facts be put in
and left out: either there is no text before and after, or it stays the same. -/
theorem programText_rearranged (database : FilePath) :
    (∀ ts us : List Table,
      ((∃ q, (Schema.mk (ts ++ us)).generated database.text = .ok q) ↔
        (∃ q, (Schema.mk ts).generated database.text = .ok q) ∧
          ∃ r, (Schema.mk us).generated database.text = .ok r) ∧
      ∀ q r, (Schema.mk ts).generated database.text = .ok q →
        (Schema.mk us).generated database.text = .ok r →
          (Schema.mk (ts ++ us)).generated database.text = .ok (q.merge r)) ∧
    ∀ (p : Policy) (attachments : List Attachment) (s s' : Schema),
      (∀ a, a ∈ attachments ↔ a ∈ p.attachments) → (∀ t, t ∈ s'.factTables ↔ t ∈ s.factTables) →
        (∃ e e', p.programText database s = .error e ∧
          programText { p with attachments } database s' = .error e') ∨
        ∃ text, p.programText database s = .ok text ∧
          programText { p with attachments } database s' = .ok text := by
  refine ⟨Schema.generated_append database.text, fun p attachments s s' hattachments htables => ?_⟩
  have htext (q : Program) :
      textOver { p with attachments } (withFacts { p with attachments } q) = p.textOver (p.withFacts q) := by
    rw [withFacts_congr hattachments]
    rfl
  have hsame : (p.programText database s).toOption =
      (programText { p with attachments } database s').toOption := by
    simp only [programText_eq, toOption_map, Schema.generated_congr database.text htables, htext]
  exact error_or_ok_of_toOption_eq hsame

/-! ### A policy with two documents -/

namespace Rearranged

def provenance : Attachment := ⟨"provenance", 1, .bool true⟩

def report : Attachment := ⟨"report", 2, .null⟩

def attached : Policy := { text := "passed_policies(\"p\", 1).", attachments := [provenance, report] }

def checks : Table := ⟨"_check", [⟨"id", .integer, true⟩, ⟨"passed", .boolean, false⟩]⟩

def repositories : Table := ⟨"_repository", [⟨"id", .integer, true⟩, ⟨"name", .string, false⟩]⟩

/-- A table without facts, of a type that no Datalog type stands for. -/
def log : Table := ⟨"log", [⟨"at", .other "DATETIME", false⟩]⟩

theorem supported {t : Table} (ht : t ∈ [checks, repositories]) : t.Supported := by
  intro c hc ⟨type, htype⟩
  rcases List.mem_pair.1 ht with rfl | rfl <;>
    rcases List.mem_pair.1 hc with rfl | rfl <;> cases htype

theorem exists_generated_singleton {t : Table} (ht : t ∈ [checks, repositories])
    (hfact : (Schema.mk [t]).factTables = [t]) : ∃ q, (Schema.mk [t]).generated "/db" = .ok q := by
  refine (Schema.exists_generated_iff "/db").2 ?_
  rw [hfact, List.forall_mem_singleton]
  exact supported ht

end Rearranged

open Rearranged in
theorem programText_rearranged_attached :
    (∃ q r, (Schema.mk [checks]).generated "/db" = .ok q ∧
      (Schema.mk [repositories]).generated "/db" = .ok r ∧
        (Schema.mk [checks, repositories]).generated "/db" = .ok (q.merge r)) ∧
    (∀ a, a ∈ [report, provenance, report] ↔ a ∈ attached.attachments) ∧
    (∀ t, t ∈ (Schema.mk [log, repositories, checks, repositories]).factTables ↔
      t ∈ (Schema.mk [checks, repositories]).factTables) ∧
    ∃ text, attached.programText ⟨"/db"⟩ ⟨[checks, repositories]⟩ = .ok text ∧
      programText { attached with attachments := [report, provenance, report] } ⟨"/db"⟩
        ⟨[log, repositories, checks, repositories]⟩ = .ok text := by
  have hboth : (Schema.mk [checks, repositories]).factTables = [checks, repositories] := by
    decide +kernel
  have hmore : (Schema.mk [log, repositories, checks, repositories]).factTables =
      [repositories, checks, repositories] := by decide +kernel
  have hattachments (a : Attachment) : a ∈ [report, provenance, report] ↔ a ∈ attached.attachments := by
    simp only [attached, List.mem_cons, List.not_mem_nil]
    tauto
  have htables (t : Table) : t ∈ (Schema.mk [log, repositories, checks, repositories]).factTables ↔
      t ∈ (Schema.mk [checks, repositories]).factTables := by
    simp only [hmore, hboth, List.mem_cons, List.not_mem_nil]
    tauto
  obtain ⟨hunion, hrearranged⟩ := programText_rearranged ⟨"/db"⟩
  obtain ⟨q, hq⟩ := exists_generated_singleton (t := checks) List.mem_cons_self (by decide +kernel)
  obtain ⟨r, hr⟩ := exists_generated_singleton (t := repositories)
    (List.mem_cons_of_mem _ List.mem_cons_self) (by decide +kernel)
  obtain ⟨text, htext⟩ : ∃ text,
      attached.programText ⟨"/db"⟩ ⟨[checks, repositories]⟩ = .ok text :=
    exists_programText_iff.2 fun t ht => supported (hboth ▸ ht)
  refine ⟨⟨q, r, hq, hr, (hunion [checks] [repositories]).2 q r hq hr⟩, hattachments, htables, ?_⟩
  rcases hrearranged attached _ _ _ hattachments htables with ⟨e, -, he, -⟩ | hsame
  · cases he.symm.trans htext
  · exact hsame

end PolicyCheck.Datalog.Policy
