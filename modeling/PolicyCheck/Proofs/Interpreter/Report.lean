import Mathlib.Tactic.SplitIfs
import PolicyCheck.Proofs.Interpreter.Run
import PolicyCheck.Proofs.Text.Lines
import PolicyCheck.Proofs.Text.Utf8

/-!
# What an interpreter reports

An error report is looked for in the lines of a decoded text, but it can be read off the octets that the
interpreter wrote: decoding keeps every octet below 128 and makes none, and cutting into lines takes out
nothing that stands in the word.
-/

namespace PolicyCheck.Interpreter

open Text (Octets)
open Text.Utf8 (Lossy Single decodeLossy encode lossy_iff)

/-- The octets of the word that marks a failed run. -/
def errorOctets : Octets := [0x45, 0x72, 0x72, 0x6F, 0x72]

theorem encode_errorMark : encode errorMark.toList = errorOctets := by decide +kernel

/-- A decoded text reports an error if and only if the octets hold those of the mark. -/
theorem reportsError_iff {octets : Octets} {text : List Char} (h : Lossy octets text) :
    reportsError text = true ↔ errorOctets <:+: octets := by
  have hne : errorMark.toList ≠ [] := by decide
  have hmarks : '\n' ∉ errorMark.toList ∧ '\r' ∉ errorMark.toList := by decide
  have hsingle : Single errorMark.toList := by decide
  rw [reportsError, Text.any_lines_contains_iff hne hmarks.1 hmarks.2, ← encode_errorMark,
    h.inStep.infix_iff hsingle hne]

namespace Workspace

variable {w : Workspace} {source : FilePath} {extra : List String} {h h' : Host} {status : Nat}
  {stderr : Octets}

/-- Whatever the exit status and the octets on the standard error of a run, it succeeds if and only if the
status is zero and the octets do not hold the mark, and its error shows the octets decoded. -/
theorem invoke_of_start
    (hstart : (Host.start w.binary (w.arguments source extra) w.root).on h = (.ok (status, stderr), h')) :
    (((w.invoke source extra).on h).1 = .ok () ↔ status = 0 ∧ ¬ errorOctets <:+: stderr) ∧
    (∀ e, ((w.invoke source extra).on h).1 = .error e → ∃ text, Lossy stderr text ∧
      e = .interpreter (w.commandLine source extra) (String.ofList text)) ∧
    ((w.invoke source extra).on h).2 = h' := by
  have hlossy : Lossy stderr (decodeLossy stderr) := lossy_iff.2 rfl
  have hmark := reportsError_iff hlossy
  rw [on_invoke, hstart]
  dsimp only
  split_ifs with hfault
  · refine ⟨iff_of_false nofun ?_, ?_, rfl⟩
    · rintro ⟨hstatus, hquiet⟩
      exact hfault.elim (fun hne => hne hstatus) fun hreport => hquiet (hmark.1 hreport)
    · rintro _ ⟨⟩
      exact ⟨decodeLossy stderr, hlossy, rfl⟩
  · obtain ⟨hstatus, hquiet⟩ := not_or.1 hfault
    exact ⟨iff_of_true rfl ⟨Decidable.not_not.1 hstatus, mt hmark.2 hquiet⟩, nofun, rfl⟩

namespace Malformed

def workspace : Workspace where
  root := ["tmp"]
  binary := ⟨"/souffle"⟩
  outputDir? := none
  includeDir := ⟨"/tmp"⟩
  factDir := ⟨"/tmp"⟩
  libraryDir := ⟨"/tmp"⟩

/-- A host whose programs end with success and write some octets to their standard error. -/
def writing (stderr : Octets) : Host where
  files := ⟨[(["souffle"], .file [] true), (["tmp"], .directory)]⟩
  behaviour := fun _ started => .exited 0 stderr started.files

theorem startable_writing (stderr : Octets) : (writing stderr).startable workspace.binary
    (workspace.arguments ⟨"/tmp/a.dl"⟩ []) workspace.root = .ok () := rfl

theorem start_writing (stderr : Octets) : ∃ h',
    (Host.start workspace.binary (workspace.arguments ⟨"/tmp/a.dl"⟩ []) workspace.root).on (writing stderr) =
      (.ok (0, stderr), h') := by
  rw [Host.on_start, startable_writing]
  exact ⟨_, rfl⟩

def cutOff : Octets := [0xE2, 0x82] ++ errorOctets ++ [0xF0, 0x9F]

def torn : Octets := [0x45, 0x72, 0x72, 0x0D, 0x0A, 0x6F, 0x72]

end Malformed

open Malformed in
theorem invoke_of_start_malformed :
    ((workspace.invoke ⟨"/tmp/a.dl"⟩ []).on (writing cutOff)).1 ≠ .ok () ∧
    ((workspace.invoke ⟨"/tmp/a.dl"⟩ []).on (writing torn)).1 = .ok () := by
  obtain ⟨_, hcut⟩ := start_writing cutOff
  obtain ⟨_, htorn⟩ := start_writing torn
  exact ⟨mt (invoke_of_start hcut).1.1 (by decide), (invoke_of_start htorn).1.2 (by decide)⟩

end Workspace

end PolicyCheck.Interpreter
