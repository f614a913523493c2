import PolicyCheck.Proofs.Host.Deposit
import PolicyCheck.Proofs.Interpreter.Run
import PolicyCheck.Proofs.Interpreter.Workspace

/-!
# What an interpreter does

A started interpreter writes files to the output directory that its arguments name, writes to its
standard error and ends. A file that cannot be written is left out. The relations of the files that
it has written are a matter of these files alone, and they are what is loaded if the directory was
empty at the start.
-/

namespace PolicyCheck

namespace Start

def outputFlag : String := "--output-dir="

/-- The output directory that the arguments name, unless output is discarded. -/
def outputDir? (s : Start) : Option FilePath :=
  (s.arguments.findSome? fun argument =>
    if outputFlag.toList.isPrefixOf argument.toList then
      some (String.ofList (argument.toList.drop outputFlag.length))
    else none).bind fun text => if text = Interpreter.Settings.discard then none else some ⟨text⟩

end Start

namespace Interpreter

/-- What an interpreter does: how it ends, and the files that it writes to its output directory. -/
structure Deed where
  status : Nat
  stderr : Text.Octets
  files : List (String × Text.Octets)
  plain : ∀ file ∈ files, FilePath.Plain file.1
  distinct : (files.map Prod.fst).Nodup

namespace Deed

/-- The file system after the deed of a start, and the files that it has written. -/
def effect (d : Deed) (s : Start) : FileTree × List (String × Text.Octets) :=
  match s.outputDir? with
  | some dir => s.files.deposit s.directory dir d.files
  | none => (s.files, [])

theorem sound_effect {d : Deed} {s : Start} (hfiles : s.files.Sound)
    (hdirs : ∀ dir ∈ s.outputDir?, dir.isAbsolute = true) : (d.effect s).1.Sound := by
  rw [effect]
  cases houtput : s.outputDir? with
  | none => exact hfiles
  | some dir => exact hfiles.deposit (hdirs dir houtput) s.directory d.files

def written (d : Deed) (s : Start) : List (String × Text.Octets) := (d.effect s).2

end Deed

/-- Interpreters that do these deeds, by the number of starts before, or cannot be started. -/
def performing (deeds : Nat → Start → Except IoError Deed) : Behaviour := fun n s =>
  match deeds n s with
  | .ok d => .exited d.status d.stderr (d.effect s).1
  | .error cause => .refused cause

/-! ### The relations in files -/

/-- Adds the relation in a file, if the file holds one. -/
def addRelation (relations : Datalog.Relations) (file : String × Text.Octets) :
    Option Datalog.Relations :=
  match Workspace.relationName? file.1 with
  | none => some relations
  | some relation => (Text.Utf8.decode? file.2).map fun cs =>
      relations.insert relation (.ofText (String.ofList cs))

def relationsOf? (files : List (String × Text.Octets)) : Option Datalog.Relations :=
  files.foldlM addRelation ∅

theorem toOption_bind {ε α β : Type} (result : Except ε α) (next : α → Except ε β) :
    (result >>= next).toOption = result.toOption.bind fun a => (next a).toOption := by
  cases result <;> rfl

theorem readText_eq_ok_iff {h : Host} {p : FilePath} {text : String} :
    h.readText p = .ok text ↔
      ∃ contents, h.files.read h.directory p = .ok contents ∧
        ∃ cs, Text.Utf8.decode? contents = some cs ∧ String.ofList cs = text := by
  rw [Host.readText, bind_eq_ok_iff]
  refine exists_congr fun contents => and_congr_right fun _ => ?_
  cases Text.Utf8.decode? contents with
  | none =>
    constructor
    · exact fun h => nomatch h
    · rintro ⟨_, hcs, -⟩
      cases hcs
  | some cs =>
    constructor
    · exact fun h => ⟨cs, rfl, Except.ok.inj h⟩
    · rintro ⟨_, hcs, rfl⟩
      obtain rfl := Option.some.inj hcs
      rfl

theorem readText_toOption {h : Host} {p : FilePath} {contents : Text.Octets}
    (hread : h.files.read h.directory p = .ok contents) :
    (h.readText p).toOption = (Text.Utf8.decode? contents).map String.ofList := by
  rw [Host.readText, toOption_bind, hread, Except.toOption, Option.bind_some]
  cases Text.Utf8.decode? contents <;> rfl

theorem loadFile_toOption {h : Host} {dir : FilePath} {file : String × Text.Octets}
    (relations : Datalog.Relations)
    (hread : h.files.read h.directory (dir.join ⟨file.1⟩) = .ok file.2) :
    (Workspace.loadFile h dir relations file.1).toOption = addRelation relations file := by
  rw [Workspace.loadFile, addRelation]
  cases Workspace.relationName? file.1 with
  | none => rfl
  | some relation =>
    simp only [toOption_bind, readText_toOption hread]
    cases Text.Utf8.decode? file.2 <;> rfl

theorem foldlM_loadFile {h : Host} {dir : FilePath} {files : List (String × Text.Octets)}
    (relations : Datalog.Relations)
    (hread : ∀ file ∈ files, h.files.read h.directory (dir.join ⟨file.1⟩) = .ok file.2) :
    ((files.map Prod.fst).foldlM (Workspace.loadFile h dir) relations).toOption =
      files.foldlM addRelation relations := by
  induction files generalizing relations with
  | nil => rfl
  | cons file files ih =>
    obtain ⟨hfile, hfiles⟩ := List.forall_mem_cons.1 hread
    rw [List.map_cons, List.foldlM_cons, List.foldlM_cons, toOption_bind, loadFile_toOption _ hfile]
    exact Option.bind_congr fun next _ => ih next hfiles

/-- The rows are those in the contents of a file. -/
def RowsOf (contents : Text.Octets) (rows : Datalog.Relation) : Prop :=
  ∃ cs, Text.Utf8.decode? contents = some cs ∧ rows = .ofText (String.ofList cs)

/-- A file brings in one relation at most, and that with the rows in its contents. -/
theorem get?_addRelation {relations next : Datalog.Relations} {file : String × Text.Octets} {name : String}
    {rows : Datalog.Relation} (h : addRelation relations file = some next)
    (hrows : next.get? name = some rows) :
    relations.get? name = some rows ∨ (Workspace.relationName? file.1 = some name ∧ RowsOf file.2 rows) := by
  rw [addRelation] at h
  split at h
  · obtain rfl := Option.some.inj h
    exact .inl hrows
  · rename_i relation hrelation
    obtain ⟨cs, hcs, rfl⟩ := Option.map_eq_some_iff.1 h
    rw [Dictionary.get?_insert] at hrows
    by_cases hname : name = relation
    · rw [if_pos hname] at hrows
      exact .inr ⟨hname ▸ hrelation, cs, hcs, (Option.some.inj hrows).symm⟩
    · rw [if_neg hname] at hrows
      exact .inl hrows

theorem get?_foldlM_addRelation {files : List (String × Text.Octets)} {before relations : Datalog.Relations}
    {name : String} {rows : Datalog.Relation} (h : files.foldlM addRelation before = some relations)
    (hrows : relations.get? name = some rows) :
    before.get? name = some rows ∨
      ∃ file ∈ files, Workspace.relationName? file.1 = some name ∧ RowsOf file.2 rows := by
  induction files generalizing before with
  | nil =>
    obtain rfl := Option.some.inj h
    exact .inl hrows
  | cons file files ih =>
    rw [List.foldlM_cons] at h
    obtain ⟨next, hnext, h⟩ := Option.bind_eq_some_iff.1 h
    rcases ih h with hnextrows | ⟨other, hother, hfound⟩
    · rcases get?_addRelation hnext hnextrows with hbefore | hfound
      · exact .inl hbefore
      · exact .inr ⟨file, List.mem_cons_self, hfound⟩
    · exact .inr ⟨other, List.mem_cons_of_mem _ hother, hfound⟩

theorem relationsOf?_traced {files : List (String × Text.Octets)} {relations : Datalog.Relations}
    {name : String} {rows : Datalog.Relation} (hrelations : relationsOf? files = some relations)
    (hrows : relations.get? name = some rows) :
    ∃ file ∈ files, Workspace.relationName? file.1 = some name ∧ RowsOf file.2 rows := by
  rcases get?_foldlM_addRelation hrelations hrows with hnone | hfound
  · cases hnone
  · exact hfound

theorem exists_of_foldlM_loadFile {h : Host} {dir : FilePath} {names : List String}
    {before relations : Datalog.Relations}
    (hload : names.foldlM (Workspace.loadFile h dir) before = .ok relations) :
    ∃ files : List (String × Text.Octets),
      (∀ file ∈ files, file.1 ∈ names ∧ h.files.read h.directory (dir.join ⟨file.1⟩) = .ok file.2) ∧
        files.foldlM addRelation before = some relations := by
  induction names generalizing before with
  | nil =>
    obtain rfl := Except.ok.inj hload
    exact ⟨[], nofun, rfl⟩
  | cons name names ih =>
    rw [List.foldlM_cons] at hload
    obtain ⟨next, hnext, hload⟩ := bind_eq_ok_iff.1 hload
    obtain ⟨files, hread, hfiles⟩ := ih hload
    have hrest : ∀ file ∈ files,
        file.1 ∈ name :: names ∧ h.files.read h.directory (dir.join ⟨file.1⟩) = .ok file.2 :=
      fun file hfile => ⟨List.mem_cons_of_mem _ (hread file hfile).1, (hread file hfile).2⟩
    rw [Workspace.loadFile] at hnext
    split at hnext
    · obtain rfl := Except.ok.inj hnext
      exact ⟨files, hrest, hfiles⟩
    · rename_i relation hrelation
      obtain ⟨text, htext, hnext⟩ := bind_eq_ok_iff.1 hnext
      obtain rfl := Except.ok.inj hnext
      obtain ⟨contents, hcontents, cs, hcs, rfl⟩ := readText_eq_ok_iff.1 htext
      refine ⟨(name, contents) :: files,
        List.forall_mem_cons.2 ⟨⟨List.mem_cons_self, hcontents⟩, hrest⟩, ?_⟩
      rw [List.foldlM_cons, addRelation, hrelation]
      simp only [hcs]
      exact hfiles

/-- Every relation that is loaded is in a file of that name that stands in the output directory. -/
theorem load_traced {h : Host} {w : Workspace} {dir : FilePath} {relations : Datalog.Relations}
    {name : String} {rows : Datalog.Relation} (hw : w.outputDir? = some dir)
    (hload : Workspace.load h w = .ok relations) (hrows : relations.get? name = some rows) :
    ∃ place, h.files.find h.directory dir = .ok (place, .directory) ∧
      ∃ file ∈ h.files.namesIn place, Workspace.relationName? file = some name ∧
        ∃ contents, h.files.read h.directory (dir.join ⟨file⟩) = .ok contents ∧ RowsOf contents rows := by
  rw [Workspace.load, hw] at hload
  obtain ⟨names, hlist, hloaded⟩ := bind_eq_ok_iff.1 hload
  obtain ⟨place, hfind, rfl⟩ := FileTree.list_eq_ok_iff.1 hlist
  obtain ⟨files, hread, hrelations⟩ := exists_of_foldlM_loadFile hloaded
  obtain ⟨file, hfile, hname, hfound⟩ := relationsOf?_traced hrelations hrows
  obtain ⟨hlisted, hcontents⟩ := hread file hfile
  exact ⟨place, hfind, file.1, hlisted, hname, file.2, hcontents, hfound⟩

theorem load_toOption {h : Host} {w : Workspace} {dir : FilePath} {place : Place}
    {files : List (String × Text.Octets)} (hw : w.outputDir? = some dir)
    (hfind : h.files.find h.directory dir = .ok (place, .directory))
    (hnames : h.files.namesIn place = files.map Prod.fst)
    (hread : ∀ file ∈ files, h.files.read h.directory (dir.join ⟨file.1⟩) = .ok file.2) :
    (Workspace.load h w).toOption = relationsOf? files := by
  have hlist : h.list dir = .ok (files.map Prod.fst) := by
    rw [Host.list, FileTree.list, hfind, ← hnames]
    rfl
  rw [Workspace.load, hw]
  simp only [hlist]
  exact foldlM_loadFile ∅ hread

/-! ### The course of a start -/

def Deed.Fails (d : Deed) : Prop := d.status ≠ 0 ∨ reportsError (Text.Utf8.decodeLossy d.stderr) = true

instance (d : Deed) : Decidable d.Fails := inferInstanceAs (Decidable (_ ∨ _))

/-- The relations that a deed has to show, if it does not fail and leaves files that can be read. -/
def Deed.relations? (d : Deed) (s : Start) : Option Datalog.Relations :=
  if d.Fails then none else relationsOf? (d.written s)

def yield? (deeds : Nat → Start → Except IoError Deed) (n : Nat) (s : Start) :
    Option Datalog.Relations :=
  match deeds n s with
  | .ok d => d.relations? s
  | .error _ => none

namespace Workspace

/-- The output directory is there, under an absolute path, and nothing is in it. -/
def Bare (t : FileTree) (outputDir? : Option FilePath) : Prop :=
  ∀ dir ∈ outputDir?, dir.isAbsolute = true ∧
    ∃ place, (∀ directory, t.find directory dir = .ok (place, .directory)) ∧ t.namesIn place = []

theorem argument_output (text : String) :
    (if Start.outputFlag.toList.isPrefixOf ("--output-dir=" ++ text).toList = true then
      some (String.ofList (("--output-dir=" ++ text).toList.drop Start.outputFlag.length)) else none) =
        some text := by
  have hflag : Start.outputFlag.toList.isPrefixOf ("--output-dir=" ++ text).toList = true := by
    rw [String.toList_append, List.isPrefixOf_iff_prefix]
    exact List.prefix_append _ _
  have hdrop : ("--output-dir=".toList ++ text.toList).drop Start.outputFlag.length = text.toList :=
    List.drop_left' rfl
  rw [if_pos hflag, String.toList_append, hdrop, String.ofList_toList]

def starting (w : Workspace) (source : FilePath) (files : FileTree) : Start :=
  ⟨w.binary, w.arguments source [], w.root, files⟩

theorem outputDir?_starting {w : Workspace} {source : FilePath} (hsource : source.isAbsolute = true)
    (hdir : ∀ dir ∈ w.outputDir?, dir.isAbsolute = true) (files : FileTree) :
    (w.starting source files).outputDir? = w.outputDir? := by
  have hfirst : Start.outputFlag.toList.isPrefixOf source.text.toList = false := by
    have hhead : source.text.toList.head? = some FilePath.slash := of_decide_eq_true hsource
    obtain ⟨cs, hcs⟩ := List.head?_eq_some_iff.1 hhead
    rw [hcs]
    rfl
  have hsecond :
      Start.outputFlag.toList.isPrefixOf ("--include-dir=" ++ w.includeDir.text).toList = false := by
    rw [String.toList_append]
    rfl
  simp only [starting, Start.outputDir?, arguments, List.cons_append, List.findSome?_cons, hfirst, hsecond,
    Bool.false_eq_true, if_false, argument_output, Option.bind_some]
  cases houtput : w.outputDir? with
  | none => rfl
  | some dir =>
    rw [Option.map_some, Option.getD_some, if_neg]
    intro hdash
    have habsolute := hdir dir houtput
    rw [FilePath.isAbsolute, hdash] at habsolute
    cases habsolute

theorem Prepared.bare {t : FileTree} {root place : Place} (ht : Prepared t root place) :
    Bare t (some (entryPath root "output")) := by
  intro dir hdir
  obtain rfl := Option.some.inj hdir
  exact ⟨entryPath_isAbsolute root "output", place ++ ["output"], ht.output, ht.empty⟩

/-- What is loaded after a deed in a bare output directory are the relations in the files that it has
written. -/
theorem load_after {w : Workspace} {h : Host} {s : Start} {d : Deed} (hbare : Bare s.files w.outputDir?)
    (hdir : s.outputDir? = w.outputDir?) (hfiles : h.files = (d.effect s).1) :
    (load h w).toOption = relationsOf? (d.written s) := by
  cases houtput : w.outputDir? with
  | none =>
    rw [load, houtput, Deed.written, Deed.effect, hdir, houtput]
    rfl
  | some dir =>
    obtain ⟨habsolute, place, hfind, hempty⟩ := hbare dir houtput
    have hspec := FileTree.deposit_spec (hfind s.directory) d.plain d.distinct fun file _ =>
      FileTree.entry?_eq_none_of_namesIn (by rw [hempty]; exact List.not_mem_nil)
    obtain ⟨hkeeps, hnames, hread⟩ := hspec
    have heffect : d.effect s = s.files.deposit s.directory dir d.files := by
      rw [Deed.effect, hdir, houtput]
    rw [← heffect] at hkeeps hnames hread
    rw [hempty, List.nil_append] at hnames
    rw [← hfiles] at hkeeps hnames hread
    refine load_toOption houtput (hkeeps.extends.find (hfind h.directory)) hnames fun file hfile => ?_
    rw [FileTree.read_of_isAbsolute (FilePath.isAbsolute_join_left _ habsolute) h.directory s.directory]
    exact hread file hfile

theorem on_collect_of_error {w : Workspace} {source : FilePath} {h : Host} {cause : IoError}
    (hstartable : h.startable w.binary (w.arguments source []) w.root = .error cause) :
    ∃ e, (w.collect source).on h = (.error e, h) := by
  rw [collect, Action.on_bind, on_invoke, Host.on_start, hstartable]
  exact ⟨_, rfl⟩

/-- A start is entered among the starts, and after its deed the output directory is loaded. -/
theorem on_collect_of_ok {w : Workspace} {source : FilePath} {h : Host}
    {deeds : Nat → Start → Except IoError Deed} (hbehaviour : h.behaviour = performing deeds)
    (hstartable : h.startable w.binary (w.arguments source []) w.root = .ok ()) :
    let after := (w.collect source).on h
    let s := w.starting source h.files
    match deeds h.starts.length s with
    | .error _ => after.2 = h.startedWith s h.files ∧ ∃ e, after.1 = .error e
    | .ok d =>
      after.2 = h.startedWith s (d.effect s).1 ∧
        after.1.toOption = if d.Fails then none else (load (h.startedWith s (d.effect s).1) w).toOption := by
  rw [collect, Action.on_bind, on_invoke, Host.on_start, hstartable]
  simp only [hbehaviour, performing, starting]
  cases deeds h.starts.length ⟨w.binary, w.arguments source [], w.root, h.files⟩ with
  | error cause => exact ⟨rfl, _, rfl⟩
  | ok d =>
    by_cases hfails : d.Fails
    · simp only [if_pos hfails]
      rw [if_pos (show d.status ≠ 0 ∨ reportsError _ = true from hfails)]
      exact ⟨rfl, rfl⟩
    · simp only [if_neg hfails]
      rw [if_neg (show ¬ (d.status ≠ 0 ∨ reportsError _ = true) from hfails)]
      refine ⟨rfl, ?_⟩
      change (Except.mapError Error.io (load _ w)).toOption = _
      cases load (h.startedWith _ _) w <;> rfl

end Workspace

end Interpreter

end PolicyCheck
