import PolicyCheck.Proofs.Host.Listing
import PolicyCheck.Registry

/-!
# What a registry is loaded from

A path stands for itself or for the files in a directory, which are put in order by their names, so the
order in which the directory shows them is lost. The registry is then a fold over the paths: of the
structural policies for a target the last one stays, Datalog policies queue up, and a path without a
policy leaves no trace.
-/

namespace PolicyCheck.Registry

open Interpreter (Settings)

variable {h h' : Host} {settings : Settings} {r : Registry} {path : FilePath} {paths kept : List FilePath}
  {target : String}

def fresh (settings : Settings) (text : String) : Datalog.Policy := { text, settings }

def structural? (h : Host) (path : FilePath) : Option Structural.Policy :=
  match path.extension? with
  | some "yaml" | some "yml" => (Structural.Policy.ofFile h path).toOption
  | _ => none

/-- The text of the Datalog policy that a path gives. -/
def datalogText? (h : Host) (path : FilePath) : Option String :=
  match path.extension? with
  | some "dl" => (h.readText path).toOption
  | _ => none

/-- The structural policy for just the target that the last of the paths gives. -/
def lastFor? (h : Host) (paths : List FilePath) (target : String) : Option Structural.Policy :=
  ((paths.filterMap (structural? h)).filter fun policy => policy.target = target).getLast?

/-- Some of the paths, with all from which a policy is loaded. -/
inductive Thinned (h : Host) : List FilePath → List FilePath → Prop
  | nil : Thinned h [] []
  | keep (path : FilePath) {paths kept : List FilePath} (rest : Thinned h paths kept) :
    Thinned h (path :: paths) (path :: kept)
  | drop {path : FilePath} {paths kept : List FilePath} (structural : structural? h path = none)
    (datalog : datalogText? h path = none) (rest : Thinned h paths kept) : Thinned h (path :: paths) kept

/-! ### One path -/

theorem addFile_eq (h : Host) (settings : Settings) (r : Registry) (path : FilePath) : addFile h settings r path =
    match structural? h path, datalogText? h path with
    | some policy, _ => r.addStructural policy
    | none, some text => r.addDatalog (fresh settings text)
    | none, none => r := by
  rw [addFile, structural?, datalogText?, Datalog.Policy.ofFile]
  generalize path.extension? = extension
  split
  · cases Structural.Policy.ofFile h path <;> rfl
  · cases Structural.Policy.ofFile h path <;> rfl
  · cases h.readText path <;> rfl
  · simp only [*]

theorem addFile_of_none (hstructural : structural? h path = none) (hdatalog : datalogText? h path = none) :
    addFile h settings r path = r := by
  rw [addFile_eq, hstructural, hdatalog]

theorem structural_addFile (h : Host) (settings : Settings) (r : Registry) (path : FilePath) :
    (addFile h settings r path).structural.get? target =
      ((structural? h path).filter fun policy => policy.target = target).or (r.structural.get? target) := by
  rw [addFile_eq]
  cases structural? h path with
  | none => cases datalogText? h path <;> rfl
  | some policy =>
    show (r.structural.insert policy.target policy).get? target = _
    rw [Dictionary.get?_insert, Option.filter_some]
    simp only [eq_comm (a := target), decide_eq_true_eq]
    split <;> rfl

theorem ofFile_of_structural? {policy : Structural.Policy} (hstructural : structural? h path = some policy) :
    Structural.Policy.ofFile h path = .ok policy := by
  rw [structural?] at hstructural
  split at hstructural
  · exact toOption_eq_some_iff.1 hstructural
  · exact toOption_eq_some_iff.1 hstructural
  · cases hstructural

theorem datalogText?_eq_none {policy : Structural.Policy} (hstructural : structural? h path = some policy) :
    datalogText? h path = none := by
  rw [structural?] at hstructural
  rw [datalogText?]
  generalize path.extension? = extension at hstructural ⊢
  split at hstructural
  · rfl
  · rfl
  · cases hstructural

theorem datalog_addFile (h : Host) (settings : Settings) (r : Registry) (path : FilePath) :
    (addFile h settings r path).datalog = r.datalog ++ ((datalogText? h path).map (fresh settings)).toList := by
  rw [addFile_eq]
  cases hstructural : structural? h path with
  | some policy =>
    rw [datalogText?_eq_none hstructural]
    exact (List.append_nil _).symm
  | none =>
    cases datalogText? h path with
    | none => exact (List.append_nil _).symm
    | some text => rfl

/-! ### All paths -/

theorem lastFor?_cons (h : Host) (path : FilePath) (paths : List FilePath) (target : String) :
    lastFor? h (path :: paths) target =
      (lastFor? h paths target).or ((structural? h path).filter fun policy => policy.target = target) := by
  rw [lastFor?, lastFor?, List.filterMap_cons]
  cases structural? h path with
  | none => simp
  | some policy =>
    dsimp only
    rw [List.filter_cons, Option.filter_some]
    split
    · rw [List.getLast?_cons, Option.or_some]
    · simp

theorem get?_foldl_addFile (h : Host) (settings : Settings) (r : Registry) (paths : List FilePath) (target : String) :
    (paths.foldl (addFile h settings) r).structural.get? target =
      (lastFor? h paths target).or (r.structural.get? target) := by
  induction paths generalizing r with
  | nil => rfl
  | cons path paths ih => rw [List.foldl_cons, ih, structural_addFile, lastFor?_cons, Option.or_assoc]

theorem datalog_foldl_addFile (h : Host) (settings : Settings) (r : Registry) (paths : List FilePath) :
    (paths.foldl (addFile h settings) r).datalog =
      r.datalog ++ (paths.filterMap (datalogText? h)).map (fresh settings) := by
  induction paths generalizing r with
  | nil => exact (List.append_nil _).symm
  | cons path paths ih =>
    rw [List.foldl_cons, ih, datalog_addFile, List.append_assoc, List.filterMap_cons]
    cases datalogText? h path <;> rfl

theorem datalog_ofFiles (h : Host) (settings : Settings) (paths : List FilePath) :
    (ofFiles h settings paths).datalog = (paths.filterMap (datalogText? h)).map (fresh settings) :=
  datalog_foldl_addFile h settings {} paths

theorem Thinned.foldl_addFile (hthinned : Thinned h paths kept) (settings : Settings) (r : Registry) :
    kept.foldl (addFile h settings) r = paths.foldl (addFile h settings) r := by
  induction hthinned generalizing r with
  | nil => rfl
  | keep path _ ih => exact ih (addFile h settings r path)
  | drop hstructural hdatalog _ ih => rw [List.foldl_cons, addFile_of_none hstructural hdatalog, ih]

/-! ### Directories in any order -/

theorem addFile_congr (horder : h.Reordered h') : addFile h = addFile h' := by
  funext settings r path
  rw [addFile, addFile, Structural.Policy.ofFile, Structural.Policy.ofFile, Datalog.Policy.ofFile,
    Datalog.Policy.ofFile, horder.readText_eq]

theorem mergeSort_eq_of_perm {names names' : List String} (hperm : names.Perm names') :
    names.mergeSort (· ≤ ·) = names'.mergeSort (· ≤ ·) := by
  have hsorted (names : List String) : (names.mergeSort (· ≤ ·)).Pairwise (· ≤ ·) := by
    have hle : (names.mergeSort (· ≤ ·)).Pairwise fun a b => decide (a ≤ b) = true :=
      List.pairwise_mergeSort (by simpa using fun a b c => String.le_trans) (by simpa using String.le_total) names
    simpa only [decide_eq_true_eq] using hle
  refine List.Perm.eq_of_pairwise (fun _ _ _ _ => String.le_antisymm) (hsorted names) (hsorted names') ?_
  exact (List.mergeSort_perm names _).trans (hperm.trans (List.mergeSort_perm names' _).symm)

theorem exists_filesAt (horder : h.Reordered h') (path : FilePath) :
    ∃ files, filesAt h path = .ok files ∧ filesAt h' path = .ok files := by
  rw [filesAt, filesAt, ← horder.isDirectory_eq, ← horder.isFile_eq]
  cases hdirectory : h.isDirectory path with
  | false => exact ⟨[path], rfl, rfl⟩
  | true =>
    obtain ⟨names, hnames⟩ := Host.exists_list_of_isDirectory hdirectory
    obtain ⟨names', hnames', hperm⟩ := horder.list_perm hnames
    rw [if_pos rfl, if_pos rfl, hnames, hnames']
    refine ⟨_, rfl, ?_⟩
    rw [mergeSort_eq_of_perm hperm]
    rfl

theorem exists_collect (horder : h.Reordered h') (inputs : List FilePath) :
    ∃ paths, collect h inputs = .ok paths ∧ collect h' inputs = .ok paths := by
  have hfiles : inputs.mapM (filesAt h) = inputs.mapM (filesAt h') := by
    refine congrArg (inputs.mapM ·) (funext fun path => ?_)
    obtain ⟨files, hfiles, hfiles'⟩ := exists_filesAt horder path
    rw [hfiles, hfiles']
  obtain ⟨files, hok⟩ := exists_mapM_eq_ok_iff.2 fun path (_ : path ∈ inputs) =>
    (exists_filesAt horder path).imp fun _ => And.left
  exact ⟨files.flatten, bind_eq_ok_iff.2 ⟨files, hok, rfl⟩, bind_eq_ok_iff.2 ⟨files, hfiles ▸ hok, rfl⟩⟩

/-- Loading does not depend on the order of the directories, nor on paths without a policy. The structural
policy for a target is the last one for it, or else the last one for any, and the Datalog policies are those
of all paths that can be read. -/
theorem registry_in_any_order (horder : h.Reordered h') (settings : Settings) (inputs : List FilePath) :
    ∃ paths, collect h inputs = .ok paths ∧ collect h' inputs = .ok paths ∧
      ofFiles h' settings paths = ofFiles h settings paths ∧
      (∀ target, (ofFiles h settings paths).policyFor? target =
        (lastFor? h paths target).or (lastFor? h paths Structural.Policy.anyTarget)) ∧
      (ofFiles h settings paths).datalog = (paths.filterMap (datalogText? h)).map (fresh settings) ∧
      ∀ kept, Thinned h paths kept → ofFiles h settings kept = ofFiles h settings paths := by
  obtain ⟨paths, hpaths, hpaths'⟩ := exists_collect horder inputs
  refine ⟨paths, hpaths, hpaths', ?_, fun target => ?_, ?_, fun kept hthinned => ?_⟩
  · rw [ofFiles, ofFiles, addFile_congr horder]
  · have hget (target : String) : (ofFiles h settings paths).structural.get? target = lastFor? h paths target := by
      rw [ofFiles, get?_foldl_addFile, Dictionary.get?_empty, Option.or_none]
    rw [policyFor?, hget, hget]
  · exact datalog_ofFiles h settings paths
  · exact hthinned.foldl_addFile settings {}

namespace Mixed

def text (id target : String) : String := "metadata:\n  id: " ++ id ++ "\n  target: " ++ target ++ "\n"

/-- A directory with two policies for one target, one for any, a Datalog policy and a broken one. -/
def host : Host where
  files := ⟨[(["p"], .directory), (["p", "a.yaml"], .file (Text.Utf8.encode (text "a" "o/r").toList) false),
    (["p", "b.yml"], .file (Text.Utf8.encode (text "b" "o/r").toList) false),
    (["p", "c.yaml"], .file (Text.Utf8.encode (text "c" "any").toList) false),
    (["p", "d.dl"], .file (Text.Utf8.encode "// d".toList) false), (["p", "e.yaml"], .file [0xFF] false)]⟩

def giving : List FilePath := [⟨"/p/a.yaml"⟩, ⟨"/p/b.yml"⟩, ⟨"/p/c.yaml"⟩, ⟨"/p/d.dl"⟩]

def found : List FilePath := giving ++ [⟨"/p/e.yaml"⟩]

theorem collect_host : collect host [⟨"/p"⟩] = .ok found := by
  have hlist : (host.list ⟨"/p"⟩).toOption = some ["a.yaml", "b.yml", "c.yaml", "d.dl", "e.yaml"] := by
    decide +kernel
  have hsorted : ["a.yaml", "b.yml", "c.yaml", "d.dl", "e.yaml"].mergeSort (· ≤ ·) =
      ["a.yaml", "b.yml", "c.yaml", "d.dl", "e.yaml"] := List.mergeSort_of_pairwise (by decide)
  have hfiles : filesAt host ⟨"/p"⟩ = .ok found := by
    rw [filesAt, if_pos (by decide +kernel), toOption_eq_some_iff.1 hlist]
    refine (congrArg (fun names : List String => Except.ok ((names.map _).filter host.isFile)) hsorted).trans ?_
    exact congrArg Except.ok (by decide +kernel)
  rw [collect, List.mapM_cons, hfiles]
  rfl

theorem thinned : Thinned host found giving := by
  have hstructural : structural? host ⟨"/p/e.yaml"⟩ = none := by decide +kernel
  have hdatalog : datalogText? host ⟨"/p/e.yaml"⟩ = none := by decide +kernel
  exact .keep _ (.keep _ (.keep _ (.keep _ (.drop hstructural hdatalog .nil))))

end Mixed

open Mixed in
theorem registry_in_any_order_mixed : ∃ reversed paths, collect reversed [⟨"/p"⟩] = .ok paths ∧
    ofFiles reversed {} paths = ofFiles host {} giving ∧
    ((ofFiles reversed {} paths).policyFor? "o/r").map (·.id) = some "b" ∧
    ((ofFiles reversed {} paths).policyFor? "x/y").map (·.id) = some "c" ∧
    (ofFiles reversed {} paths).datalog = [fresh {} "// d"] := by
  have horder := Host.Reordered.of_perm host (List.reverse_perm host.files.entries).symm (by decide)
  obtain ⟨paths, hpaths, hpaths', hload, hpolicy, hdatalog, hthinned⟩ := registry_in_any_order horder {} [⟨"/p"⟩]
  obtain rfl := Except.ok.inj (collect_host.symm.trans hpaths)
  refine ⟨_, _, hpaths', ?_⟩
  rw [hload, hpolicy, hpolicy, hdatalog, hthinned giving thinned]
  refine ⟨rfl, by decide +kernel, by decide +kernel, ?_⟩
  have htexts : found.filterMap (datalogText? host) = ["// d"] := by decide +kernel
  rw [htexts]
  rfl

end PolicyCheck.Registry
