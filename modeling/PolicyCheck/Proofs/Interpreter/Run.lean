import PolicyCheck.Interpreter.Run
import PolicyCheck.Proofs.Except
import PolicyCheck.Proofs.Host.Action

/-!
# The course of a run

What using a workspace, starting the interpreter and running a program come to, each as one equation
over the host before it. A workspace is taken out whatever its use gives, and the source file of a
program whatever its run gives.
-/

namespace PolicyCheck

namespace Host

def pruned (h : Host) (place : Place) : Host := { h with files := h.files.prune place }

def startedWith (h : Host) (start : Start) (files : FileTree) : Host :=
  { h with starts := h.starts ++ [start], files }

def startable (h : Host) (program : FilePath) (arguments : List String) (directory : Place) :
    Except IoError Unit :=
  if (program.text :: arguments).any fun text => '\x00' ∈ text.toList then
    .error (.other "nul byte found in provided data")
  else h.resolveProgram directory program

/-- A start that may take place is entered among the starts, and its behaviour decides the rest. -/
theorem on_start (program : FilePath) (arguments : List String) (directory : Place) (h : Host) :
    (start program arguments directory).on h =
      match h.startable program arguments directory with
      | .error cause => (.error cause, h)
      | .ok () =>
        let started : Start := ⟨program, arguments, directory, h.files⟩
        match h.behaviour h.starts.length started with
        | .refused cause => (.error cause, h.startedWith started h.files)
        | .exited status stderr files => (.ok (status, stderr), h.startedWith started files) := by
  rw [start, startable, Action.on_bind_of_ok (Action.on_get h)]
  by_cases hnul : (program.text :: arguments).any fun text => '\x00' ∈ text.toList
  · rw [if_pos hnul, if_pos hnul]
    rfl
  · rw [if_neg hnul, if_neg hnul]
    show (Action.ofExcept (h.resolveProgram directory program) >>= _).on h = _
    rw [Action.on_bind, Action.on_ofExcept]
    cases h.resolveProgram directory program with
    | error cause => rfl
    | ok _ =>
      simp only [Action.on_bind, Action.on_set]
      cases h.behaviour h.starts.length ⟨program, arguments, directory, h.files⟩ <;> rfl

end Host

namespace Interpreter.Workspace

theorem on_make (s : Settings) (h : Host) :
    (make s).on h =
      match makeRoot.on h with
      | (.error cause, h') => (.error cause, h')
      | (.ok root, h') =>
        match (layOut root s).on h' with
        | (.error cause, left) => (.error cause, left.pruned root)
        | (.ok w, left) => (.ok w, left) := by
  rw [make, Action.on_bind]
  rcases makeRoot.on h with ⟨cause | root, h'⟩
  · rfl
  · dsimp only
    rw [Action.on_bind_of_ok (Action.on_attempt _ h')]
    rcases (layOut root s).on h' with ⟨cause | w, left⟩ <;> rfl

theorem on_within {α : Type} (s : Settings) (use : Workspace → Action Error α) (h : Host) :
    (within s use).on h =
      match (make s).on h with
      | (.error cause, h') => (.error (.io cause), h')
      | (.ok w, h') => (((use w).on h').1, ((use w).on h').2.pruned w.root) := by
  rw [within, Action.on_bind, Action.on_mapError]
  rcases (make s).on h with ⟨cause | w, h'⟩
  · rfl
  · rfl

/-- What a run of a source file gives: the error of its start, the error that it reports, or the
relations that it leaves. -/
theorem on_invoke (w : Workspace) (source : FilePath) (extra : List String) (h : Host) :
    (w.invoke source extra).on h =
      match (Host.start w.binary (w.arguments source extra) w.root).on h with
      | (.error cause, h') => (.error (.interpreter (w.commandLine source extra) cause.message), h')
      | (.ok (status, stderr), h') =>
        if status ≠ 0 ∨ reportsError (Text.Utf8.decodeLossy stderr) then
          (.error (.interpreter (w.commandLine source extra)
            (String.ofList (Text.Utf8.decodeLossy stderr))), h')
        else (.ok (), h') := by
  rw [invoke, Action.on_bind, Action.on_mapError]
  rcases (Host.start w.binary (w.arguments source extra) w.root).on h with ⟨cause | ⟨status, stderr⟩, h'⟩
  · rfl
  · simp only [Except.mapError]
    split <;> rfl

def collect (w : Workspace) (source : FilePath) : Action Error Datalog.Relations := do
  w.invoke source []
  (Action.ask fun h => load h w).mapError .io

/-- Relations are collected when the start ends well, reports no error and leaves files that can be
read. -/
theorem on_collect_eq_ok {w : Workspace} {source : FilePath} {h h' : Host}
    {relations : Datalog.Relations} :
    (w.collect source).on h = (.ok relations, h') ↔
      ∃ stderr, (Host.start w.binary (w.arguments source []) w.root).on h = (.ok (0, stderr), h') ∧
        reportsError (Text.Utf8.decodeLossy stderr) = false ∧ load h' w = .ok relations := by
  rw [collect, Action.on_bind, on_invoke]
  rcases (Host.start w.binary (w.arguments source []) w.root).on h with ⟨cause | ⟨status, stderr⟩, ended⟩
  · simp
  · by_cases hfault : status ≠ 0 ∨ reportsError (Text.Utf8.decodeLossy stderr) = true
    · simp only [if_pos hfault, Prod.mk.injEq, reduceCtorEq, false_and, false_iff, not_exists]
      rintro _ ⟨⟨hok, -⟩, hquiet, -⟩
      obtain ⟨rfl, rfl⟩ := Prod.mk.inj (Except.ok.inj hok)
      rcases hfault with hstatus | hreport
      · exact hstatus rfl
      · exact Bool.false_ne_true (hquiet.symm.trans hreport)
    · obtain ⟨hstatus, hreport⟩ := not_or.1 hfault
      obtain rfl : status = 0 := Decidable.not_not.1 hstatus
      simp only [if_neg hfault, Action.on_mapError, Action.on_ask, Prod.mk.injEq]
      constructor
      · rintro ⟨hload, rfl⟩
        refine ⟨stderr, ⟨rfl, rfl⟩, Bool.not_eq_true _ ▸ hreport, ?_⟩
        exact mapError_eq_ok_iff.1 hload
      · rintro ⟨_, ⟨-, rfl⟩, -, hload⟩
        exact ⟨mapError_eq_ok_iff.2 hload, rfl⟩

theorem on_interpretText (w : Workspace) (text : String) (h : Host) :
    (w.interpretText text).on h =
      match (w.writeSource text).on h with
      | (.error cause, h') => (.error (.io cause), h')
      | (.ok source, h') =>
        (((w.collect source).on h').1,
          ((w.collect source).on h').2.pruned (w.root ++ source.fileName?.toList)) := by
  rw [interpretText, Action.on_bind, Action.on_mapError]
  rcases (w.writeSource text).on h with ⟨cause | source, h'⟩
  · rfl
  · rfl

end Interpreter.Workspace

end PolicyCheck
