import PolicyCheck.Proofs.Datalog.Isolation
import PolicyCheck.Proofs.Registry.Evaluation
import PolicyCheck.Proofs.Registry.Loading

/-!
# Policies that share their settings

The policies of a registry are loaded with the same settings and evaluated on one host, one after the
other and again. What each gets from an evaluation is meant to be a matter of its own start. That is not
so when the settings name an output directory: all runs share it, it is read whole, and what earlier runs
have left there is read again.
-/

namespace PolicyCheck.Registry

open Datalog (Policy)
open Datalog.Policy (Call OwnOutput)
open Interpreter (Deed Settings performing)

variable {deeds : Nat → Start → Except IoError Deed} {settings : Settings}

/-- A host and the policies on it, after they have been loaded and any of them evaluated any number of
times. The tree of files is sound, as that of every file system is. -/
inductive Reached (deeds : Nat → Start → Except IoError Deed) (settings : Settings) :
    Host → List Policy → Prop
  | loaded {h : Host} (sound : h.files.Sound) (behaviour : h.behaviour = performing deeds)
    (loading : Host) (paths : List FilePath) :
    Reached deeds settings h (ofFiles loading settings paths).datalog
  | evaluated {h : Host} {before after : List Policy} {p : Policy}
    (reached : Reached deeds settings h (before ++ p :: after)) (database : FilePath) (schema : Schema)
    (repository? : Option Int) :
    Reached deeds settings ((⟨database, schema, repository?, h⟩ : Call).outcome p).2
      (before ++ (⟨database, schema, repository?, h⟩ : Call).after p :: after)

/-! ### Evaluations -/

theorem Reached.evaluateAll {h : Host} (before : List Policy) {ps : List Policy}
    (hreached : Reached deeds settings h (before ++ ps)) (database : FilePath) (schema : Schema)
    (repository? : Option Int) :
    Reached deeds settings ((evaluateAll database schema repository? ps).run h).2
      (before ++ ((evaluateAll database schema repository? ps).run h).1.2) := by
  induction ps generalizing h before with
  | nil => exact hreached
  | cons p ps ih =>
    have hone := hreached.evaluated database schema repository?
    let c : Call := ⟨database, schema, repository?, h⟩
    rw [evaluateAll_cons]
    cases c.answer p with
    | error e => exact hone
    | ok verdict =>
      have hrest := ih (before ++ [c.after p]) (by rwa [List.append_assoc])
      rwa [List.append_assoc] at hrest

/-- Evaluations keep the tree of files sound, the interpreters, and of the policies all but their
results. -/
theorem Reached.invariant {h : Host} {ps : List Policy} (hreached : Reached deeds settings h ps) :
    h.files.Sound ∧ h.behaviour = performing deeds ∧
      ∀ p ∈ ps, p.includes = [] ∧ p.settings = settings := by
  induction hreached with
  | loaded hsound hbehaviour loading paths =>
    refine ⟨hsound, hbehaviour, fun p hp => ?_⟩
    rw [datalog_ofFiles] at hp
    obtain ⟨text, -, rfl⟩ := List.mem_map.1 hp
    exact ⟨rfl, rfl⟩
  | @evaluated h before after p _ database schema repository? ih =>
    obtain ⟨hsound, hbehaviour, hpolicies⟩ := ih
    obtain ⟨hincludes, hsettings⟩ := hpolicies p (by simp)
    let c : Call := ⟨database, schema, repository?, h⟩
    obtain ⟨hsound', hbehaviour'⟩ := c.sound_outcome hincludes hsound hbehaviour
    refine ⟨hsound', hbehaviour', fun q hq => ?_⟩
    rcases List.mem_append.1 hq with hq | hq
    · exact hpolicies q (List.mem_append_left _ hq)
    · rcases List.mem_cons.1 hq with rfl | hq
      · rw [c.after_eq p]
        exact ⟨hincludes, hsettings⟩
      · exact hpolicies q (List.mem_append_right _ (List.mem_cons_of_mem _ hq))

/-- What a policy gets from an evaluation is a matter of its own start, where the output directory is
the run's own or output is discarded; otherwise it may be of what stood in the output directory. -/
theorem Reached.isolated {h : Host} {ps : List Policy} {p : Policy}
    (hreached : Reached deeds settings h ps) (hp : p ∈ ps) (database : FilePath) (schema : Schema)
    (repository? : Option Int) :
    let c : Call := ⟨database, schema, repository?, h⟩
    (OwnOutput settings → c.Isolated p deeds) ∧ c.Traced p deeds := by
  intro c
  obtain ⟨hsound, hbehaviour, hpolicies⟩ := hreached.invariant
  obtain ⟨hincludes, hsettings⟩ := hpolicies p hp
  constructor
  · rintro hown
    exact c.isolated_of_ownOutput hincludes (hsettings ▸ hown) hsound hbehaviour
  · exact c.traced hincludes hsound hbehaviour

/-! ### Two policies on one host -/

namespace Pair

def own : Settings := { binary := ⟨"/souffle"⟩ }

def named : Settings := { own with outputDir? := some ⟨"/out"⟩ }

/-- The deed of an interpreter that writes a failed record. -/
def failing : Deed where
  status := 0
  stderr := []
  files := [("failed_policies.csv", Text.Utf8.encode "p\t1\n".toList)]
  plain := by decide +kernel
  distinct := by decide

def idle : Deed where
  status := 0
  stderr := []
  files := []
  plain := nofun
  distinct := .nil

/-- The first start writes a failed record, the others write nothing. -/
def failingOnce (n : Nat) (_ : Start) : Except IoError Deed := .ok (if n = 0 then failing else idle)

def host : Host where
  files := ⟨[(["a.dl"], .file (Text.Utf8.encode "// a".toList) false),
    (["b.dl"], .file (Text.Utf8.encode "// b".toList) false), (["souffle"], .file [] true),
    (["out"], .directory), (["tmp"], .directory)]⟩
  behaviour := performing failingOnce

def paths : List FilePath := [⟨"/a.dl"⟩, ⟨"/b.dl"⟩]

def first : Call := ⟨⟨"/db"⟩, ⟨[]⟩, none, host⟩

def second (settings : Settings) : Call :=
  ⟨⟨"/db"⟩, ⟨[]⟩, none, (first.outcome (fresh settings "// a")).2⟩

theorem sound : host.files.Sound := by decide +kernel

theorem reached (settings : Settings)
    (htexts : (ofFiles host settings paths).datalog.map Policy.text = ["// a", "// b"]) :
    Reached failingOnce settings (second settings).host
      [first.after (fresh settings "// a"), fresh settings "// b"] := by
  have hloaded : (ofFiles host settings paths).datalog = [fresh settings "// a", fresh settings "// b"] := by
    have htext : Policy.text ∘ fresh settings = id := rfl
    rw [datalog_ofFiles, List.map_map, htext, List.map_id] at htexts
    rw [datalog_ofFiles, htexts]
    rfl
  have hreached : Reached failingOnce settings host (ofFiles host settings paths).datalog :=
    .loaded sound rfl host paths
  rw [hloaded] at hreached
  exact @Reached.evaluated _ _ host [] [fresh settings "// b"] (fresh settings "// a") hreached
    ⟨"/db"⟩ ⟨[]⟩ none

end Pair

open Pair in
/-- With an output directory of its own the second policy does not see what the first one's run has
written. -/
theorem isolated_beside_another :
    OwnOutput own ∧
      (⟨⟨"/db"⟩, ⟨[]⟩, none, (second own).host⟩ : Call).Isolated (fresh own "// b") failingOnce := by
  have hreached := reached own (by decide +kernel)
  have hmem : fresh own "// b" ∈ [first.after (fresh own "// a"), fresh own "// b"] :=
    List.mem_cons_of_mem _ List.mem_cons_self
  have hown : OwnOutput own := .inr rfl
  exact ⟨hown, (Reached.isolated hreached hmem ⟨"/db"⟩ ⟨[]⟩ none).1 hown⟩

open Pair in
/-- With a named output directory the second policy fails by the record that the first one's interpreter
has left, although its own interpreter has written nothing. -/
theorem not_isolated_in_named_directory :
    Reached failingOnce named (second named).host
        [first.after (fresh named "// a"), fresh named "// b"] ∧
      (∀ s, failingOnce (second named).host.starts.length s = .ok idle) ∧
      ((second named).after (fresh named "// b")).failed = [⟨"p", 1, none⟩] ∧
      ¬ (second named).Isolated (fresh named "// b") failingOnce := by
  have hrun : ((second named).host.starts.length,
      ((second named).after (fresh named "// b")).relations.get? "failed_policies",
      ((second named).after (fresh named "// b")).failed) = (1, some [["p", "1"]], [⟨"p", 1, none⟩]) := by
    decide +kernel
  obtain ⟨hstarts, hrest⟩ := Prod.mk.inj hrun
  obtain ⟨hrows, hfailed⟩ := Prod.mk.inj hrest
  have hidle (s : Start) : failingOnce (second named).host.starts.length s = .ok idle := by
    rw [hstarts]
    rfl
  refine ⟨reached named (by decide +kernel), hidle, hfailed, ?_⟩
  rintro (⟨-, -, -, hafter, -⟩ | ⟨-, hgives⟩ | ⟨s, -, -, hown⟩)
  · rw [hafter] at hfailed
    cases hfailed
  · obtain ⟨_, hnone, -⟩ := hgives.relations hrows
    cases hnone
  · obtain ⟨d, hd, file, hfile, -⟩ := hown _ _ hrows
    obtain rfl := Except.ok.inj ((hidle s).symm.trans hd)
    rw [Deed.written, Deed.effect] at hfile
    split at hfile
    · cases hfile
    · cases hfile

end PolicyCheck.Registry
