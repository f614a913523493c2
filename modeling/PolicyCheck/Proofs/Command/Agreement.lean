import PolicyCheck.Proofs.Command.Failure
import PolicyCheck.Proofs.Command.Verdict
import PolicyCheck.Proofs.Interpreter.Exchange

/-!
# One policy, two commands

The Datalog policy in a file can be evaluated by itself or as the only policy of a registry. The two
commands read what they need in a different order, and the registry passes over what it cannot read; but
once all has been read, either makes the same call of the same policy. With an interpreter that does the
same with the same program, wherever the program lies, they therefore submit the same, end with the same
status and report the same records, of which the registry leaves out those of other repositories.
-/

namespace PolicyCheck

open PolicyCheck.Action
open Datalog (Policy)
open Datalog.Policy (Call)
open FilePath (Plain)
open Interpreter (Deed MakesUp Unknown performing)

theorem Host.isDirectory_of_readText {h : Host} {p : FilePath} {text : String}
    (hread : h.readText p = .ok text) : h.isDirectory p = false := by
  obtain ⟨contents, hcontents, -⟩ := bind_eq_ok_iff.1 hread
  obtain ⟨⟨place, entry⟩, hfind, hentry⟩ := bind_eq_ok_iff.1 hcontents
  cases entry with
  | directory => cases hentry
  | file contents executable =>
    rw [isDirectory, entry?, hfind]
    rfl

namespace Registry

variable {r : Registry} {c : Call} {p : Policy}

theorem outcome_singleton (hdatalog : r.datalog = [p]) :
    r.outcome c =
      match c.answer p with
      | .error e => ((.error e, { r with datalog := [c.after p] }), (c.outcome p).2)
      | .ok holds =>
        ((.ok (c.after p).failed, { r with datalog := [c.after p], verdict? := some holds }), (c.outcome p).2) := by
  rw [outcome_eq, hdatalog, evaluateAll_cons]
  cases c.answer p with
  | error e => rfl
  | ok holds =>
    have hempty : (evaluateAll c.database c.schema c.repository? []).run (c.outcome p).2 =
      ((.ok (true, []), []), (c.outcome p).2) := rfl
    simp only [hempty, Except.map, Bool.and_true, List.append_nil]

end Registry

namespace Command

/-! ### The commands -/

/-- What is asked of the Datalog policy in a file. -/
structure Question where
  file : FilePath
  database : FilePath
  schema : FilePath
  repository? : Option Int := none
  settings : SettingsOptions := {}

namespace Question

def alone (q : Question) (style : Report.Style) : DatalogOptions where
  database := q.database
  schema := q.schema
  task := .evaluate q.file
  repository? := q.repository?
  settings := q.settings
  style

/-- The check of a registry with the policy and nothing else. -/
def registered (q : Question) (target : String) (style : Report.Style) : CheckOptions where
  paths := [q.file]
  database? := some ⟨q.database, q.schema⟩
  repository? := q.repository?
  target
  settings := q.settings
  style

/-- All that the question names can be read on a host: the call that it comes to, and the policy. -/
inductive Opens (q : Question) (h : Host) : Call → Policy → Prop
  | intro {schema : Schema} {database : FilePath} {settings : Interpreter.Settings} {text : String}
    (hopen : databaseAt h q.schema q.database = .ok (schema, database))
    (hsettings : resolveSettings h q.settings = .ok settings) (htext : h.readText q.file = .ok text) :
    Opens q h ⟨database, schema, q.repository?, h⟩ (Registry.fresh settings text)

/-- The program text that the question comes to on a host. -/
def Asks (q : Question) (h : Host) (program : String) : Prop :=
  ∃ c p, q.Opens h c p ∧ c.program p = .ok program

variable {q : Question} {h : Host} {c : Call} {p : Policy}

theorem ofFile_eq {text : String} (htext : h.readText q.file = .ok text) (settings : Interpreter.Settings) :
    Policy.ofFile h settings q.file = .ok (Registry.fresh settings text) := by
  rw [Policy.ofFile, htext]
  rfl

/-! ### The policy by itself -/

theorem on_evaluation (hopens : q.Opens h c p) (style : Report.Style) :
    (evaluation (q.alone style) q.file).on h =
      (((c.answer p).mapError .error).map (.ofPolicy (c.after p)), (c.outcome p).2) := by
  obtain @⟨schema, database, settings, text, hopen, hsettings, htext⟩ := hopens
  rw [evaluation, openDatabase_eq, on_bind_ask_of_ok hopen]
  dsimp only
  rw [on_bind_ask_of_ok hsettings, ask, mapError_ask, on_bind_ask_of_ok (by rw [ofFile_eq htext]; rfl)]
  let c : Call := ⟨database, schema, q.repository?, h⟩
  have hincludes : (q.alone style).includes.mapM readInclude = pure [] := rfl
  have hattachments : (q.alone style).documents.mapM readAttachment = pure [] := rfl
  rw [hincludes, pure_bind, hattachments, pure_bind]
  refine (on_bind_of_ok ((Registry.fresh settings text).on_evaluate c)).trans ?_
  cases c.answer (Registry.fresh settings text) <;> rfl

theorem on_evaluation_of_not_opens (hopens : ¬ ∃ c p, q.Opens h c p) {text : String}
    (htext : h.readText q.file = .ok text) (style : Report.Style) :
    ∃ failure, (evaluation (q.alone style) q.file).on h = (.error failure, h) := by
  rw [evaluation, openDatabase_eq]
  cases hopen : databaseAt h q.schema q.database with
  | error failure => exact ⟨failure, on_bind_ask_of_error hopen⟩
  | ok opened =>
    rw [on_bind_ask_of_ok hopen]
    cases hsettings : resolveSettings h q.settings with
    | error failure => exact ⟨failure, on_bind_ask_of_error hsettings⟩
    | ok settings => exact absurd ⟨_, _, .intro hopen hsettings htext⟩ hopens

/-! ### The policy in a registry -/

theorem registryAt_registered {text : String} (hextension : q.file.extension? = some "dl")
    (htext : h.readText q.file = .ok text) (target : String) (style : Report.Style) :
    registryAt h (q.registered target style) =
      (resolveSettings h q.settings).map fun settings => Registry.addDatalog {} (Registry.fresh settings text) := by
  have hfiles : Registry.filesAt h q.file = .ok [q.file] := by
    rw [Registry.filesAt, Host.isDirectory_of_readText htext]
    rfl
  have hcollect : Registry.collect h [q.file] = .ok [q.file] := by
    rw [Registry.collect, List.mapM_cons, hfiles]
    rfl
  have hregistry (settings : Interpreter.Settings) :
      Registry.ofFiles h settings [q.file] = Registry.addDatalog {} (Registry.fresh settings text) := by
    rw [Registry.ofFiles, List.foldl_cons, List.foldl_nil, Registry.addFile, hextension]
    simp only [ofFile_eq htext]
  rw [registryAt, registered]
  simp only [hcollect]
  cases resolveSettings h q.settings with
  | error failure => rfl
  | ok settings => exact congrArg Except.ok (hregistry settings)

def report (q : Question) (after : Policy) (passed : Bool) : Report.Check where
  datalogPassed? := some passed
  passedRecords := after.passed.filter (·.concerns q.repository?)
  failedRecords := after.failed.filter (·.concerns q.repository?)

theorem passed_report (q : Question) (after : Policy) (passed : Bool) : (q.report after passed).passed = passed :=
  Bool.and_true passed

theorem on_examination (hextension : q.file.extension? = some "dl") (hopens : q.Opens h c p) (target : String)
    (style : Report.Style) :
    (examination (q.registered target style)).on h =
      (((c.answer p).mapError .error).map (q.report (c.after p)), (c.outcome p).2) := by
  obtain @⟨schema, database, settings, text, hopen, hsettings, htext⟩ := hopens
  have hregistry := registryAt_registered hextension htext target style
  rw [hsettings] at hregistry
  rw [examination, openRegistry_eq, on_bind_ask_of_ok hregistry]
  let c : Call := ⟨database, schema, q.repository?, h⟩
  let p : Policy := Registry.fresh settings text
  let r : Registry := Registry.addDatalog {} p
  have houtcome : r.outcome c = _ := Registry.outcome_singleton (p := p) rfl
  have hdatalog : (checkDatalog (q.registered target style) r).on h =
      (((r.answer c).mapError .error).map fun _ => datalogReport (r.after c) q.repository?, (r.outcome c).2) :=
    on_checkDatalog (List.cons_ne_nil _ _) rfl hopen
  rw [on_bind, hdatalog, Registry.answer, Registry.after, houtcome]
  cases c.answer p with
  | error e => rfl
  | ok passed =>
    simp only [Except.map, Except.mapError, datalogReport, List.flatMap_singleton]
    rfl

theorem on_examination_of_not_opens (hextension : q.file.extension? = some "dl")
    (hopens : ¬ ∃ c p, q.Opens h c p) {text : String} (htext : h.readText q.file = .ok text) (target : String)
    (style : Report.Style) : ∃ failure, (examination (q.registered target style)).on h = (.error failure, h) := by
  have hregistry := registryAt_registered hextension htext target style
  rw [examination, openRegistry_eq]
  cases hsettings : resolveSettings h q.settings with
  | error failure =>
    rw [hsettings] at hregistry
    exact ⟨failure, on_bind_ask_of_error hregistry⟩
  | ok settings =>
    rw [hsettings] at hregistry
    rw [on_bind_ask_of_ok hregistry]
    cases hopen : databaseAt h q.schema q.database with
    | error failure =>
      exact ⟨failure, on_bind_of_error (on_checkDatalog_of_error (List.cons_ne_nil _ _) rfl hopen)⟩
    | ok opened => exact absurd ⟨_, _, .intro hopen hsettings htext⟩ hopens

/-! ### Both commands -/

theorem Opens.alike {h' : Host} (halike : h.Alike h') (hopens : q.Opens h c p) :
    q.Opens h' { c with host := h' } p := by
  obtain @⟨schema, database, settings, text, hopen, hsettings, htext⟩ := hopens
  rw [halike.eq]
  exact .intro hopen hsettings htext

theorem program_alike {h' : Host} (halike : c.host.Alike h') (p : Policy) :
    ({ c with host := h' } : Call).program p = c.program p := by
  rw [halike.eq]
  rfl

theorem Opens.host (hopens : q.Opens h c p) : c.host = h := by
  cases hopens
  rfl

end Question

variable {α : Type} {task : Task} {a : Action Failure α} {render : α → String} {passed : α → Bool} {h left : Host}

theorem report_of_ok {result : α} (hrun : task.run = a >>= fun result => announce (render result) (passed result))
    (hon : a.on h = (.ok result, left)) :
    task.report.run h = (.ofVerdict (passed result), { left with output := left.output ++ render result }) :=
  Task.run_report_of_ok (by rw [hrun, on_bind_of_ok hon, on_announce])

theorem report_of_error {failure : Failure}
    (hrun : task.run = a >>= fun result => announce (render result) (passed result)) (hsane : Sane a)
    (hon : a.on h = (.error failure, left)) :
    (task.report.run h).1 = .invalidInput ∧ (task.report.run h).2.starts = left.starts := by
  have hinput := hsane h
  rw [hon] at hinput
  rw [Task.run_report_of_error (by rw [hrun, on_bind_of_error hon])]
  exact ⟨hinput, rfl⟩

/-- What a call gives is settled by the results of its run, and the starts are those of the run. -/
theorem outcome_of_ok {program : String} {c : Call} {p : Policy} (hprogram : c.program p = .ok program) :
    let results? := ((p.run program).on c.host).1.toOption.bind fun relations =>
      (Datalog.Results.ofRelations relations).toOption
    (c.outcome p).1 =
        (.ok (results?.any fun results => results.hold c.repository?), { p with results? := some (results?.getD {}) }) ∧
      (c.outcome p).2.starts = ((p.run program).on c.host).2.starts := by
  rw [c.outcome_eq, hprogram]
  dsimp only
  rcases (p.run program).on c.host with ⟨e | relations, left⟩
  · exact ⟨rfl, rfl⟩
  · dsimp only [Except.bind, Except.toOption, Option.bind_some]
    cases Datalog.Results.ofRelations relations <;> exact ⟨rfl, rfl⟩

/-- Calls whose runs go alongside give the same, and start by start they submit the program of the call. -/
theorem outcome_alongside {h' : Host} (c : Call) (p : Policy)
    (hprogram : ({ c with host := h' } : Call).program p = c.program p)
    (hrun : ∀ program, c.program p = .ok program →
      Alongside program c.host h' ((p.run program).on c.host) ((p.run program).on h')) :
    let c' : Call := { c with host := h' }
    (c'.outcome p).1 = (c.outcome p).1 ∧
      ∃ starts₁ starts₂, (c.outcome p).2.starts = c.host.starts ++ starts₁ ∧
        (c'.outcome p).2.starts = h'.starts ++ starts₂ ∧
        List.Forall₂ (fun s₁ s₂ => ∃ program, c.program p = .ok program ∧ s₁.Submits program ∧ s₂.Submits program)
          starts₁ starts₂ := by
  intro c'
  cases hfirst : c.program p with
  | error e =>
    have houtcome : c.outcome p = ((.error e, p), c.host) := by rw [c.outcome_eq, hfirst]
    have houtcome' : c'.outcome p = ((.error e, p), h') := by rw [c'.outcome_eq, hprogram, hfirst]
    rw [houtcome, houtcome']
    exact ⟨rfl, [], [], (List.append_nil _).symm, (List.append_nil _).symm, .nil⟩
  | ok program =>
    obtain ⟨hvalue, starts₁, starts₂, hstarts₁, hstarts₂, hsubmits⟩ := hrun program hfirst
    obtain ⟨hgives, hleft⟩ := outcome_of_ok hfirst
    obtain ⟨hgives', hleft'⟩ := outcome_of_ok (hprogram.trans hfirst)
    refine ⟨?_, starts₁, starts₂, hleft.trans hstarts₁, hleft'.trans hstarts₂, ?_⟩
    · rw [hgives, hgives', hvalue]
    · exact hsubmits.imp fun s₁ s₂ h => ⟨program, rfl, h⟩

namespace Question

/-- The hosts differ in what has been started and printed, in what is made up for temporary names, and in where
an interpreter finds the program; with the same program it does the same on both. The names that the next
runs make up stand nowhere else. -/
structure Comparable (q : Question) (deeds₁ deeds₂ : Nat → Start → Except IoError Deed) (h₁ h₂ : Host) : Prop where
  alike : h₁.Alike h₂
  sound : h₁.files.Sound
  temporary : ∀ name ∈ h₁.temporary, Plain name
  behaviour₁ : h₁.behaviour = performing deeds₁
  behaviour₂ : h₂.behaviour = performing deeds₂
  deeds (s₁ s₂ : Start) (program : String) : s₁.Submits program → s₂.Submits program →
    deeds₁ h₁.starts.length s₁ = deeds₂ h₂.starts.length s₂
  names : ∃ root₁ source₁ root₂ source₂, MakesUp h₁ root₁ source₁ ∧ MakesUp h₂ root₂ source₂ ∧
    ∀ name ∈ [root₁, source₁, root₂, source₂],
      (∀ s, resolveSettings h₁ q.settings = .ok s → Unknown s h₁ name) ∧
        ∀ (s₁ : Start) (d : Deed) (program : String), s₁.Submits program →
          deeds₁ h₁.starts.length s₁ = .ok d → name ∉ d.files.map Prod.fst

theorem Comparable.run {q : Question} {deeds₁ deeds₂ : Nat → Start → Except IoError Deed} {h₁ h₂ : Host}
    {c : Call} {p : Policy} (hsame : q.Comparable deeds₁ deeds₂ h₁ h₂) (hopens : q.Opens h₁ c p) (program : String) :
    Alongside program h₁ h₂ ((p.run program).on h₁) ((p.run program).on h₂) := by
  obtain ⟨hopen, hsettings, htext⟩ := hopens
  obtain ⟨root₁, source₁, root₂, source₂, hmakes₁, hmakes₂, hunknown⟩ := hsame.names
  exact Interpreter.within_alongside hsame.alike hsame.sound hsame.temporary hmakes₁ hmakes₂ hsame.behaviour₁
    hsame.behaviour₂ (fun s₁ s₂ => hsame.deeds s₁ s₂ program) fun name hname =>
      ⟨(hunknown name hname).1 _ hsettings, fun s₁ d => (hunknown name hname).2 s₁ d program⟩

end Question

open Question in
/-- The two commands agree: with an interpreter that does the same with the same program, wherever it finds
it, they end with the same status and start by start submit the program that the question comes to. Unless
they end for want of usable input, the registry reports the records that the policy by itself has for the
repository. -/
theorem Question.commands_agree {q : Question} (hextension : q.file.extension? = some "dl") {h₁ h₂ : Host}
    {deeds₁ deeds₂ : Nat → Start → Except IoError Deed} (hsame : q.Comparable deeds₁ deeds₂ h₁ h₂) {text : String}
    (htext : h₁.readText q.file = .ok text) (target : String) (style₁ style₂ : Report.Style) :
    let checked := (Task.check (q.registered target style₁)).report.run h₁
    let evaluated := (Task.datalog (q.alone style₂)).report.run h₂
    checked.1 = evaluated.1 ∧
    (∃ starts₁ starts₂, checked.2.starts = h₁.starts ++ starts₁ ∧ evaluated.2.starts = h₂.starts ++ starts₂ ∧
      List.Forall₂ (fun s₁ s₂ => ∃ program, q.Asks h₁ program ∧ s₁.Submits program ∧ s₂.Submits program)
        starts₁ starts₂) ∧
    (checked.1 ≠ .invalidInput → ∃ c e left₁ left₂,
      (examination (q.registered target style₁)).on h₁ = (.ok c, left₁) ∧
      (evaluation (q.alone style₂) q.file).on h₂ = (.ok e, left₂) ∧
      checked.2.output = h₁.output ++ c.render style₁ ∧ evaluated.2.output = h₂.output ++ e.render style₂ ∧
      c.passedRecords = e.passedRecords.filter (·.concerns q.repository?) ∧
      c.failedRecords = e.failedRecords.filter (·.concerns q.repository?) ∧
      (q.repository? = none → c.passedRecords = e.passedRecords ∧ c.failedRecords = e.failedRecords)) := by
  intro checked evaluated
  have hrun₁ : (Task.check (q.registered target style₁)).run = _ := runCheck_eq _
  have hrun₂ : (Task.datalog (q.alone style₂)).run = _ := runDatalog_eq rfl
  -- The commands read in different orders, so the first failure may be another, but not whether there is one.
  by_cases hopens : ∃ c p, q.Opens h₁ c p
  · obtain ⟨c, p, hopens⟩ := hopens
    obtain rfl := hopens.host
    obtain ⟨hgives, starts₁, starts₂, hstarts₁, hstarts₂, hsubmits⟩ :=
      outcome_alongside c p (program_alike hsame.alike p) fun program _ => hsame.run hopens program
    have hon₁ := on_examination hextension hopens target style₁
    have hon₂ := on_evaluation (hopens.alike hsame.alike) style₂
    have hasks : List.Forall₂
        (fun s₁ s₂ => ∃ program, q.Asks c.host program ∧ s₁.Submits program ∧ s₂.Submits program)
        starts₁ starts₂ := by
      refine hsubmits.imp ?_
      rintro s₁ s₂ ⟨program, hprogram, hsubmits⟩
      exact ⟨program, ⟨c, p, hopens, hprogram⟩, hsubmits⟩
    rw [Call.answer, Call.after, hgives, ← Call.answer, ← Call.after] at hon₂
    cases hverdict : c.answer p with
    | error e =>
      rw [hverdict] at hon₁ hon₂
      obtain ⟨hexit₁, hleft₁⟩ := report_of_error hrun₁ (sane_examination _) hon₁
      obtain ⟨hexit₂, hleft₂⟩ := report_of_error hrun₂ (sane_evaluation _ _) hon₂
      exact ⟨hexit₁.trans hexit₂.symm, ⟨starts₁, starts₂, hleft₁.trans hstarts₁, hleft₂.trans hstarts₂, hasks⟩,
        fun hne => absurd hexit₁ hne⟩
    | ok passed =>
      rw [hverdict] at hon₁ hon₂
      have hchecked : checked = _ := report_of_ok hrun₁ hon₁
      have hevaluated : evaluated = _ := report_of_ok hrun₂ hon₂
      have hprinted₁ := quiet_examination (q.registered target style₁) c.host.output c.host rfl
      have hprinted₂ := quiet_evaluation (q.alone style₂) q.file h₂.output h₂ rfl
      rw [hon₁] at hprinted₁
      rw [hon₂] at hprinted₂
      rw [hchecked, hevaluated]
      refine ⟨congrArg Exit.ofVerdict (q.passed_report _ _), ⟨starts₁, starts₂, hstarts₁, hstarts₂, hasks⟩, fun _ =>
        ⟨_, _, _, _, hon₁, hon₂, congrArg (· ++ _) hprinted₁, congrArg (· ++ _) hprinted₂, rfl, rfl, fun hnone => ?_⟩⟩
      have hall (records : List Datalog.Record) : records.filter (·.concerns q.repository?) = records :=
        List.filter_eq_self.2 fun _ _ => by rw [hnone]; rfl
      exact ⟨hall _, hall _⟩
  · obtain ⟨failure₁, hon₁⟩ := on_examination_of_not_opens hextension hopens htext target style₁
    have hopens₂ : ¬ ∃ c p, q.Opens h₂ c p := by
      rintro ⟨c, p, hc⟩
      exact hopens ⟨_, _, hc.alike hsame.alike.symm⟩
    have htext₂ : h₂.readText q.file = .ok text := by
      rw [hsame.alike.eq]
      exact htext
    obtain ⟨failure₂, hon₂⟩ := on_evaluation_of_not_opens hopens₂ htext₂ style₂
    obtain ⟨hexit₁, hstarts₁⟩ := report_of_error hrun₁ (sane_examination _) hon₁
    obtain ⟨hexit₂, hstarts₂⟩ := report_of_error hrun₂ (sane_evaluation _ _) hon₂
    exact ⟨hexit₁.trans hexit₂.symm, ⟨[], [], by rw [List.append_nil, hstarts₁], by rw [List.append_nil, hstarts₂], .nil⟩,
      fun hne => absurd hexit₁ hne⟩

/-! ### A failed record of another repository -/

open Registry.Pair (failing failingOnce)

/-- A question about a repository other than that of the record that the interpreter writes. -/
def elsewhere : Question where
  file := ⟨"/a.dl"⟩
  database := ⟨"/db"⟩
  schema := ⟨"/schema.json"⟩
  repository? := some 2
  settings := { binary? := some ⟨"/souffle"⟩ }

/-- The host when something else has been started and printed, and other names are drawn. -/
def later : Host :=
  { furnished with
    behaviour := performing fun _ _ => .ok failing
    draws := fun n => Draw.ofNumber (n + 500)
    starts := [⟨⟨"/souffle"⟩, [], [], {}⟩]
    output := "earlier" }

theorem comparable_later : elsewhere.Comparable failingOnce (fun _ _ => .ok failing) furnished later where
  alike := ⟨rfl, rfl, rfl, rfl, rfl⟩
  sound := by decide +kernel
  temporary := by decide
  behaviour₁ := rfl
  behaviour₂ := rfl
  deeds _ _ _ _ _ := rfl
  names := by
    refine ⟨"attest-policy-000000", "source-000001.dl", "attest-policy-000500", "source-000501.dl",
      ⟨1, by decide +kernel, by decide +kernel⟩, ⟨1, by decide +kernel, by decide +kernel⟩, ?_⟩
    have hsettings : resolveSettings furnished elsewhere.settings = .ok { binary := ⟨"/souffle"⟩ } := rfl
    have hfiles : ∀ name ∈ ["attest-policy-000000", "source-000001.dl", "attest-policy-000500", "source-000501.dl"],
        (∀ e ∈ furnished.files.entries, name ∉ e.1) ∧ name ∉ furnished.temporary ∧
          name ∉ (⟨"/souffle"⟩ : FilePath).pieces ∧ name ∉ failing.files.map Prod.fst := by decide +kernel
    intro name hname
    obtain ⟨hlacks, htemporary, hbinary, hwritten⟩ := hfiles name hname
    refine ⟨fun s hs => ?_, fun s₁ d program _ hdeed => ?_⟩
    · obtain rfl := Except.ok.inj (hsettings.symm.trans hs)
      exact ⟨hlacks, List.not_mem_nil, htemporary, nofun, hbinary, nofun⟩
    · obtain rfl : failing = d := Except.ok.inj hdeed
      exact hwritten

theorem commands_agree_elsewhere :
    elsewhere.file.extension? = some "dl" ∧
    elsewhere.Comparable failingOnce (fun _ _ => .ok failing) furnished later ∧
    furnished.readText elsewhere.file = .ok "// a" ∧
    ((Task.check (elsewhere.registered "any" .text)).report.run furnished).1 = .passed ∧
    ((Task.datalog (elsewhere.alone .json)).report.run later).1 = .passed ∧
    ∃ (c : Report.Check) (e : Report.Evaluation),
      ((Task.check (elsewhere.registered "any" .text)).report.run furnished).2.output = c.render .text ∧
      ((Task.datalog (elsewhere.alone .json)).report.run later).2.output = "earlier" ++ e.render .json ∧
      c.failedRecords = e.failedRecords.filter (·.concerns (some 2)) := by
  have hextension : elsewhere.file.extension? = some "dl" := by decide +kernel
  have htext : (furnished.readText elsewhere.file).toOption = some "// a" := by decide +kernel
  have htext := toOption_eq_some_iff.1 htext
  have hpassed : ((Task.check (elsewhere.registered "any" .text)).report.run furnished).1 = .passed := by
    decide +kernel
  obtain ⟨hexit, -, hreports⟩ := Question.commands_agree hextension comparable_later htext "any" .text .json
  obtain ⟨c, e, left₁, left₂, -, -, hchecked, hevaluated, -, hfailed, -⟩ :=
    hreports fun hinvalid => absurd (hpassed.symm.trans hinvalid) (by decide)
  exact ⟨hextension, comparable_later, htext, hpassed, hexit.symm.trans hpassed, c, e,
    hchecked.trans String.empty_append, hevaluated, hfailed⟩

end Command

end PolicyCheck
