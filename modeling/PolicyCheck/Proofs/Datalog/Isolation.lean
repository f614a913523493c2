import PolicyCheck.Proofs.Datalog.Evaluation
import PolicyCheck.Proofs.Interpreter.Deed

/-!
# What a run has of other runs

An evaluation starts one interpreter at most. Where the output directory is the run's own, or output is
discarded, what the policy gets is a matter of what this start has done. Where the settings name an
output directory, the files that stood there before the start are read as well, as relations of their names.
-/

namespace PolicyCheck.Datalog.Policy

open Interpreter (Deed Workspace Settings performing yield? RowsOf)
open Interpreter.Workspace (relationName?)

variable {deeds : Nat → Start → Except IoError Deed}

/-- The output directory is the run's own, or there is none. -/
def OwnOutput (s : Settings) : Prop := s.discards = true ∨ s.outputDir? = none

/-- The rows are those of the relation in a file that the start has written, or in one that stood in its
output directory before. -/
def Found (d : Deed) (s : Start) (name : String) (rows : Relation) : Prop :=
  (∃ file ∈ d.written s, relationName? file.1 = some name ∧ RowsOf file.2 rows) ∨
    ∃ dir ∈ s.outputDir?, ∃ place, s.files.find s.directory dir = .ok (place, .directory) ∧
      ∃ file contents executable, FilePath.Plain file ∧ relationName? file = some name ∧
        s.files.entry? (place ++ [file]) = some (.file contents executable) ∧ RowsOf contents rows

theorem stage_of_includes_eq_nil {p : Policy} (hincludes : p.includes = []) (w : Workspace) :
    p.stage w = pure () := by
  rw [stage, hincludes]
  rfl

/-- What has become of a run: its result, with the start that it has made, if it has made one. -/
structure Course (p : Policy) (deeds : Nat → Start → Except IoError Deed) (h : Host)
    (result : Except Error Relations) (s : Start) : Prop where
  own : OwnOutput p.settings → result.toOption = yield? deeds h.starts.length s
  found : ∀ relations, result = .ok relations → ∀ name rows, relations.get? name = some rows →
    ∃ d, deeds h.starts.length s = .ok d ∧ Found d s name rows

theorem found_of_load {d : Deed} {s : Start} {w : Workspace} {h : Host} {relations : Relations}
    {name : String} {rows : Relation} (hdir : s.outputDir? = w.outputDir?)
    (hdirs : ∀ dir ∈ w.outputDir?, dir.isAbsolute = true) (hsound : s.files.Sound)
    (hfiles : h.files = (d.effect s).1) (hload : Workspace.load h w = .ok relations)
    (hrows : relations.get? name = some rows) : Found d s name rows := by
  cases houtput : w.outputDir? with
  | none =>
    rw [Workspace.load, houtput] at hload
    obtain rfl := Except.ok.inj hload
    cases hrows
  | some dir =>
    obtain ⟨place, hfind, file, hfile, hname, contents, hread, hcontents⟩ :=
      Interpreter.load_traced houtput hload hrows
    have habsolute := hdirs dir houtput
    have hplain := (hfiles ▸ d.sound_effect hsound (hdir ▸ hdirs)).plain_of_mem_namesIn hfile
    rw [houtput] at hdir
    have heffect : d.effect s = s.files.deposit s.directory dir d.files := by rw [Deed.effect, hdir]
    rw [FileTree.find_of_isAbsolute habsolute h.directory s.directory] at hfind
    rw [FileTree.read_of_isAbsolute (FilePath.isAbsolute_join_left ⟨file⟩ habsolute) h.directory
      s.directory] at hread
    -- What is read stands in the directory after the deed.
    obtain ⟨at', executable, hlocate, hentry⟩ := FileTree.read_eq_ok_iff.1 hread
    obtain ⟨-, htarget⟩ := (FileTree.locate_join_eq_ok_iff hfind hplain).1 hlocate
    obtain ⟨rfl, -⟩ := FileTree.Target.mk.inj htarget
    rw [hfiles, heffect] at hfind hentry
    have hbefore := (FileTree.extends_deposit d.files).find hfind
    rcases FileTree.deposit_traced hbefore d.plain hentry with ⟨written, hwritten, hat, rfl⟩ | ⟨executable', hthere⟩
    · left
      obtain ⟨-, hsame⟩ := List.append_inj' hat rfl
      obtain rfl := List.singleton_inj.1 hsame
      rw [Deed.written, heffect]
      exact ⟨written, hwritten, hname, hcontents⟩
    · exact .inr ⟨dir, hdir, place, hbefore, file, contents, executable', hplain, hname, hthere, hcontents⟩

theorem outputDir?_isAbsolute {s : Settings} {h h' : Host} {w : Workspace}
    (hmake : (Workspace.make s).on h = (.ok w, h')) : ∀ dir ∈ w.outputDir?, dir.isAbsolute = true := by
  rw [Workspace.outputDir?_of_make hmake]
  intro dir hdir
  split at hdir
  · cases hdir
  · obtain rfl := Option.some.inj hdir
    cases s.outputDir? with
    | none => exact Workspace.entryPath_isAbsolute _ _
    | some q => exact FilePath.isAbsolute_join_left q (FilePath.ofNames_isAbsolute _)

theorem bare_of_own {s : Settings} {h made written : Host} {w : Workspace} {source : FilePath}
    {program : String} (hsound : h.files.Sound) (hown : OwnOutput s)
    (hmake : (Workspace.make s).on h = (.ok w, made))
    (hwrite : (w.writeSource program).on made = (.ok source, written)) :
    Workspace.Bare written.files w.outputDir? := by
  have houtput := Workspace.outputDir?_of_make hmake
  by_cases hdiscards : s.discards = true
  · rw [houtput, if_pos hdiscards]
    rintro dir ⟨⟩
  · rw [Bool.not_eq_true] at hdiscards
    have hnone : s.outputDir? = none := by
      rcases hown with hdiscards' | hnone
      · rw [hdiscards] at hdiscards'
        cases hdiscards'
      · exact hnone
    obtain ⟨place, hprepared⟩ := Workspace.prepared_of_make hsound.closed hdiscards hnone hmake
    rw [houtput, hdiscards, hnone]
    exact (hprepared.on_writeSource hwrite).bare

theorem course_of_collect {p : Policy} {w : Workspace} {h : Host} {source : FilePath}
    (hbehaviour : h.behaviour = performing deeds) (hsound : h.files.Sound)
    (hsource : source.isAbsolute = true) (hdirs : ∀ dir ∈ w.outputDir?, dir.isAbsolute = true)
    (hbare : OwnOutput p.settings → Workspace.Bare h.files w.outputDir?) :
    let after := (w.collect source).on h
    (after.2 = h ∧ ∃ e, after.1 = .error e) ∨
      ∃ s files, files.Sound ∧ after.2 = h.startedWith s files ∧ p.Course deeds h after.1 s := by
  intro after
  rcases hstartable : h.startable w.binary (w.arguments source []) w.root with cause | ⟨⟩
  · obtain ⟨e, hunstarted⟩ := Workspace.on_collect_of_error hstartable
    exact .inl ⟨congrArg Prod.snd hunstarted, e, congrArg Prod.fst hunstarted⟩
  right
  have hdeed := Workspace.on_collect_of_ok hbehaviour hstartable
  have hdir := Workspace.outputDir?_starting hsource hdirs h.files
  have hfiles : (w.starting source h.files).files = h.files := rfl
  generalize w.starting source h.files = s at hdeed hdir hfiles
  cases hdone : deeds h.starts.length s with
  | error cause =>
    simp only [hdone] at hdeed
    obtain ⟨hhost, e, he⟩ := hdeed
    refine ⟨s, h.files, hsound, hhost, ?_, ?_⟩
    · intro hown
      rw [he, yield?, hdone]
      rfl
    · intro relations hrelations
      cases he.symm.trans hrelations
  | ok d =>
    simp only [hdone] at hdeed
    obtain ⟨hhost, hresult⟩ := hdeed
    have hafter : (d.effect s).1.Sound := d.sound_effect (hfiles ▸ hsound) (hdir ▸ hdirs)
    refine ⟨s, (d.effect s).1, hafter, hhost, ?_, ?_⟩
    · intro hown
      rw [hresult, yield?, hdone]
      simp only [Deed.relations?]
      rw [Workspace.load_after (hfiles ▸ hbare hown) hdir rfl]
    · intro relations hrelations name rows hrows
      refine ⟨d, hdone, ?_⟩
      rw [hrelations] at hresult
      split at hresult
      · cases hresult
      · rcases hload : Workspace.load _ w with cause | loaded
        · rw [hload] at hresult
          cases hresult
        · rw [hload] at hresult
          obtain rfl := Option.some.inj hresult
          exact found_of_load hdir hdirs (hfiles ▸ hsound) rfl hload hrows

theorem on_run {p : Policy} {h : Host} (program : String) (hincludes : p.includes = [])
    (hsound : h.files.Sound) (hbehaviour : h.behaviour = performing deeds) :
    let after := (p.run program).on h
    ∃ files drawn, files.Sound ∧
      ((after.2 = { h with files, drawn } ∧ ∃ e, after.1 = .error e) ∨
        ∃ s, after.2 = { h with files, drawn, starts := h.starts ++ [s] } ∧ p.Course deeds h after.1 s) := by
  rw [run_eq, Workspace.on_within]
  obtain ⟨files₁, drawn₁, hsound₁, hmade⟩ := Workspace.tidy_make p.settings h hsound
  rcases hmake : (Workspace.make p.settings).on h with ⟨cause | w, made⟩
  · rw [hmake] at hmade
    exact ⟨files₁, drawn₁, hsound₁, .inl ⟨hmade, _, rfl⟩⟩
  rw [hmake] at hmade
  let made' : Host := { h with files := files₁, drawn := drawn₁ }
  obtain rfl : made = made' := hmade
  simp only [stage_of_includes_eq_nil hincludes, Action.on_bind_of_ok (Action.on_pure _ _),
    Workspace.on_interpretText]
  obtain ⟨files₂, drawn₂, hsound₂, hwritten⟩ := Workspace.tidy_writeSource w program made' hsound₁
  let written' : Host := { h with files := files₂, drawn := drawn₂ }
  rcases hwrite : (w.writeSource program).on made' with ⟨cause | source, written⟩
  · rw [hwrite] at hwritten
    obtain rfl : written = written' := hwritten
    exact ⟨files₂.prune w.root, drawn₂, hsound₂.prune _, .inl ⟨rfl, _, rfl⟩⟩
  rw [hwrite] at hwritten
  obtain rfl : written = written' := hwritten
  obtain ⟨name, -, hsource, -⟩ := Workspace.on_writeSource_eq_ok hwrite
  have hcollect := course_of_collect (p := p) (h := written') hbehaviour hsound₂
    (hsource ▸ Workspace.entryPath_isAbsolute w.root name) (outputDir?_isAbsolute hmake)
    fun hown => bare_of_own hsound hown hmake hwrite
  -- What is taken out at the end: the source file, and then the private directory.
  let left (t : FileTree) : FileTree := (t.prune (w.root ++ source.fileName?.toList)).prune w.root
  have hleft {t : FileTree} (ht : t.Sound) : (left t).Sound := (ht.prune _).prune _
  dsimp only
  rcases hcollect with ⟨hhost, e, he⟩ | ⟨s, files, hfiles, hhost, hcourse⟩
  · refine ⟨left files₂, drawn₂, hleft hsound₂, .inl ⟨?_, e, he⟩⟩
    rw [hhost]
    rfl
  · refine ⟨left files, drawn₂, hleft hfiles, .inr ⟨s, ?_, hcourse.own, hcourse.found⟩⟩
    rw [hhost]
    rfl

namespace Call

/-- The results in the relations of a run, if there are any and they can be read. -/
def resultsOf? (relations? : Option Relations) : Option Results :=
  relations?.bind fun relations => (Results.ofRelations relations).toOption

/-- The call gives the verdict on relations and leaves the policy with their results; without results
the policy fails and has none. -/
def Gives (c : Call) (p : Policy) (relations? : Option Relations) : Prop :=
  c.answer p = .ok ((resultsOf? relations?).any (·.hold c.repository?)) ∧
    (c.after p).results? = some ((resultsOf? relations?).getD {})

/-- What a call gives is a matter of what its own start has done: every relation is in a file that this
start has written. -/
inductive Isolated (c : Call) (p : Policy) (deeds : Nat → Start → Except IoError Deed) : Prop
  | refused (unchanged : c.Refused p)
  | unstarted (starts : (c.outcome p).2.starts = c.host.starts) (gives : c.Gives p none)
  | started (s : Start) (starts : (c.outcome p).2.starts = c.host.starts ++ [s])
    (gives : c.Gives p (yield? deeds c.host.starts.length s))
    (rows : ∀ name rows, (c.after p).relations.get? name = some rows →
      ∃ d, deeds c.host.starts.length s = .ok d ∧
        ∃ file ∈ d.written s, relationName? file.1 = some name ∧ RowsOf file.2 rows)

/-- Every relation that a call leaves is in a file that its own start has written, or in one that was in
the output directory before. -/
inductive Traced (c : Call) (p : Policy) (deeds : Nat → Start → Except IoError Deed) : Prop
  | refused (unchanged : c.Refused p)
  | evaluated (rows : ∀ name rows, (c.after p).relations.get? name = some rows →
      ∃ s d, (c.outcome p).2.starts = c.host.starts ++ [s] ∧ deeds c.host.starts.length s = .ok d ∧
        Found d s name rows)

variable {c : Call} {p : Policy}

theorem gives_of_program {program : String} (hprogram : c.program p = .ok program) :
    c.Gives p ((p.run program).on c.host).1.toOption := by
  rw [Gives, answer, after, outcome_eq, hprogram]
  dsimp only
  cases ((p.run program).on c.host).1 with
  | error e => exact ⟨rfl, rfl⟩
  | ok relations =>
    simp only [resultsOf?, Except.toOption, Option.bind_some, Except.bind]
    cases Results.ofRelations relations with
    | error e => exact ⟨rfl, rfl⟩
    | ok results => exact ⟨rfl, rfl⟩

theorem outcome_of_program {program : String} (hprogram : c.program p = .ok program) :
    (c.outcome p).2.starts = ((p.run program).on c.host).2.starts ∧
      (c.outcome p).2.files = ((p.run program).on c.host).2.files ∧
      (c.outcome p).2.behaviour = ((p.run program).on c.host).2.behaviour := by
  rw [outcome_eq, hprogram]
  dsimp only
  cases ((p.run program).on c.host).1.bind Results.ofRelations with
  | error e => exact ⟨rfl, rfl, rfl⟩
  | ok results => exact ⟨rfl, rfl, rfl⟩

theorem Gives.relations {relations? : Option Relations} {name : String} {rows : Relation}
    (hgives : c.Gives p relations?) (hrows : (c.after p).relations.get? name = some rows) :
    ∃ relations, relations? = some relations ∧ relations.get? name = some rows := by
  rw [Policy.relations, hgives.2, Option.getD_some] at hrows
  cases relations? with
  | none => cases hrows
  | some relations =>
    refine ⟨relations, rfl, ?_⟩
    rw [resultsOf?, Option.bind_some] at hrows
    cases hresults : Results.ofRelations relations with
    | error e =>
      rw [hresults] at hrows
      cases hrows
    | ok results =>
      obtain ⟨rfl, -⟩ := Results.ofRelations_eq_ok_iff.1 hresults
      rw [hresults] at hrows
      exact hrows

theorem sound_outcome (hincludes : p.includes = []) (hsound : c.host.files.Sound)
    (hbehaviour : c.host.behaviour = performing deeds) :
    (c.outcome p).2.files.Sound ∧ (c.outcome p).2.behaviour = performing deeds := by
  cases hprogram : c.program p with
  | error e =>
    obtain ⟨-, -, -, -, hhost⟩ := refused_of_error hprogram
    rw [hhost]
    exact ⟨hsound, hbehaviour⟩
  | ok program =>
    obtain ⟨-, hfiles, hbehaviour'⟩ := outcome_of_program hprogram
    rw [hfiles, hbehaviour']
    obtain ⟨files, drawn, hafter, ⟨hhost, -⟩ | ⟨s, hhost, -⟩⟩ := on_run program hincludes hsound hbehaviour
    · rw [hhost]
      exact ⟨hafter, hbehaviour⟩
    · rw [hhost]
      exact ⟨hafter, hbehaviour⟩

theorem isolated_of_ownOutput (hincludes : p.includes = []) (hown : OwnOutput p.settings)
    (hsound : c.host.files.Sound) (hbehaviour : c.host.behaviour = performing deeds) :
    c.Isolated p deeds := by
  cases hprogram : c.program p with
  | error e => exact .refused (refused_of_error hprogram)
  | ok program =>
    have hgives := gives_of_program hprogram
    obtain ⟨hstarts, -, -⟩ := outcome_of_program hprogram
    obtain ⟨files, drawn, -, ⟨hhost, e, he⟩ | ⟨s, hhost, hcourse⟩⟩ :=
      on_run program hincludes hsound hbehaviour
    · rw [he] at hgives
      rw [hhost] at hstarts
      exact .unstarted hstarts hgives
    · rw [hcourse.own hown] at hgives
      rw [hhost] at hstarts
      refine .started s hstarts hgives fun name rows hrows => ?_
      obtain ⟨relations, hyield, hget⟩ := hgives.relations hrows
      rw [yield?] at hyield
      split at hyield
      · rename_i d hdeed
        rw [Deed.relations?] at hyield
        split at hyield
        · cases hyield
        · exact ⟨d, hdeed, Interpreter.relationsOf?_traced hyield hget⟩
      · cases hyield

theorem traced (hincludes : p.includes = []) (hsound : c.host.files.Sound)
    (hbehaviour : c.host.behaviour = performing deeds) : c.Traced p deeds := by
  cases hprogram : c.program p with
  | error e => exact .refused (refused_of_error hprogram)
  | ok program =>
    refine .evaluated fun name rows hrows => ?_
    obtain ⟨relations, hrelations, hget⟩ := (gives_of_program hprogram).relations hrows
    obtain ⟨hstarts, -, -⟩ := outcome_of_program hprogram
    obtain ⟨files, drawn, -, ⟨hhost, e, he⟩ | ⟨s, hhost, hcourse⟩⟩ :=
      on_run program hincludes hsound hbehaviour
    · rw [he] at hrelations
      cases hrelations
    · rw [hhost] at hstarts
      rcases hresult : ((p.run program).on c.host).1 with e | found
      · rw [hresult] at hrelations
        cases hrelations
      · rw [hresult] at hrelations
        obtain rfl := Option.some.inj hrelations
        obtain ⟨d, hdeed, hfound⟩ := hcourse.found found hresult name rows hget
        exact ⟨s, d, hstarts, hdeed, hfound⟩

end Call

end PolicyCheck.Datalog.Policy
