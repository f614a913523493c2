import PolicyCheck.Proofs.Dictionary
import PolicyCheck.Proofs.Host.Listing
import PolicyCheck.Proofs.Interpreter.Output

/-!
# The output directory in any order

Loading goes through the output directory in the order in which the directory shows its entries, and
puts one relation after the other into a dictionary. No two names stand for one relation, so nothing that
was put in is replaced, and what has been loaded in the end is a matter of the entries alone.
-/

namespace PolicyCheck

/-- Whether the entry is a file with just the text. -/
def Entry.Holds (entry : Entry) (text : String) : Prop :=
  ∃ executable, entry = .file (Text.Utf8.encode text.toList) executable

/-- Whether no text can be read from the entry: it is a directory, or a file that is not in UTF-8. -/
def Entry.Unreadable (entry : Entry) : Prop :=
  entry = .directory ∨
    ∃ contents executable, entry = .file contents executable ∧ ∀ cs, contents ≠ Text.Utf8.encode cs

theorem Entry.not_unreadable_iff {entry : Entry} : ¬ entry.Unreadable ↔ ∃ text, entry.Holds text := by
  constructor
  · intro h
    obtain ⟨hfile, htext⟩ := not_or.1 h
    cases entry with
    | directory => exact absurd rfl hfile
    | file contents executable =>
      obtain ⟨cs, hcs⟩ := not_forall_not.1 fun hnone => htext ⟨contents, executable, rfl, hnone⟩
      exact ⟨String.ofList cs, executable, by rw [String.toList_ofList, hcs]⟩
  · rintro ⟨text, executable, rfl⟩ (hdirectory | ⟨contents, _, hfile, hnone⟩)
    · cases hdirectory
    · obtain ⟨rfl, -⟩ := Entry.file.inj hfile
      exact hnone text.toList rfl

namespace Interpreter.Workspace

open Datalog (Relation Relations)

/-- The entries of a directory, in the order in which it lists their names, each as it is found there. -/
structure Lists (h : Host) (dir : FilePath) (entries : List (String × Entry)) : Prop where
  names : h.list dir = .ok (entries.map Prod.fst)
  found : ∀ e ∈ entries, h.entry? (dir.join ⟨e.1⟩) = some e.2

variable {h h' : Host} {w : Workspace} {dir : FilePath} {names : List String} {relations before : Relations}
  {entries entries' : List (String × Entry)}

/-- The entries that stand in a directory of a file system, in its order. -/
def standing (t : FileTree) (place : Place) : List (String × Entry) :=
  (t.namesIn place).filterMap fun name => ( t.entry? (place ++ [name])).map fun entry => (name, entry)

theorem map_fst_standing (t : FileTree) (place : Place) : (standing t place).map Prod.fst = t.namesIn place := by
  rw [standing, List.map_filterMap]
  refine (List.filterMap_congr fun name hname => ?_).trans (List.filterMap_some)
  cases hentry : t.entry? (place ++ [name]) with
  | none =>
    obtain ⟨entry, hmem⟩ := FileTree.mem_namesIn.1 hname
    rw [FileTree.entry?, if_neg (by simp), List.lookup_eq_none_iff] at hentry
    simpa using hentry _ hmem
  | some entry => rfl

/-- A directory lists what stands in it, if the names are names of entries and their paths short enough. -/
theorem lists_standing {place : Place} (hfind : h.files.find h.directory dir = .ok (place, .directory))
    (hnames : ∀ name ∈ h.files.namesIn place, FilePath.Plain name ∧ FileTree.Fits dir name) :
    Lists h dir (standing h.files place) := by
  refine ⟨?_, fun e he => ?_⟩
  · rw [map_fst_standing]
    exact bind_eq_ok_iff.2 ⟨_, hfind, rfl⟩
  · obtain ⟨name, hname, hmap⟩ := List.mem_filterMap.1 he
    obtain ⟨entry, hentry, rfl⟩ := Option.map_eq_some_iff.1 hmap
    obtain ⟨hplain, hfits⟩ := hnames name hname
    have hlocate := (FileTree.locate_join_eq_ok_iff hfind hplain).2 ⟨hfits, rfl⟩
    have hfound : h.files.find h.directory (dir.join ⟨name⟩) = .ok (place ++ [name], entry) := by
      refine bind_eq_ok_iff.2 ⟨_, hlocate, ?_⟩
      rw [hentry]
      cases entry <;> rfl
    rw [Host.entry?, hfound]
    rfl

/-! ### Names -/

def Readable (h : Host) (dir : FilePath) (names : List String) : Prop :=
  ∀ relation, relation ≠ "" → relation ++ ".csv" ∈ names →
    ∃ text, h.readText (dir.join ⟨relation ++ ".csv"⟩) = .ok text

theorem readText_of_foldlM (hload : names.foldlM (loadFile h dir) before = .ok relations) :
    Readable h dir names := by
  induction names generalizing before with
  | nil => exact fun relation _ hname => nomatch hname
  | cons name names ih =>
    rw [List.foldlM_cons] at hload
    obtain ⟨next, hnext, hload⟩ := bind_eq_ok_iff.1 hload
    intro relation hne hname
    rcases List.mem_cons.1 hname with rfl | hname
    · rw [loadFile, relationName?_eq_some_iff.2 ⟨rfl, hne⟩] at hnext
      obtain ⟨text, htext, -⟩ := bind_eq_ok_iff.1 hnext
      exact ⟨text, htext⟩
    · exact ih hload relation hne hname

theorem exists_load_of_readable (hw : w.outputDir? = some dir) (hlist : h.list dir = .ok names)
    (hread : Readable h dir names) : ∃ relations, load h w = .ok relations ∧
      ∀ relation rows, relations.get? relation = some rows ↔
        relation ≠ "" ∧ relation ++ ".csv" ∈ names ∧
          ∃ text, h.readText (dir.join ⟨relation ++ ".csv"⟩) = .ok text ∧ rows = .ofText text := by
  let texts (relation : String) : Option String := (h.readText (dir.join ⟨relation ++ ".csv"⟩)).toOption
  have htexts : ∀ name ∈ names, ∀ relation, relationName? name = some relation →
      ∃ text, texts relation = some text ∧ h.readText (dir.join ⟨name⟩) = .ok text := by
    intro name hname relation hrelation
    obtain ⟨rfl, hne⟩ := relationName?_eq_some_iff.1 hrelation
    obtain ⟨text, htext⟩ := hread relation hne hname
    exact ⟨text, toOption_eq_some_iff.2 htext, htext⟩
  obtain ⟨relations, hload, hget⟩ := exists_foldlM_loadFile htexts ∅
  refine ⟨relations, ?_, fun relation rows => ?_⟩
  · rw [load, hw]
    exact bind_eq_ok_iff.2 ⟨names, hlist, hload⟩
  · rw [hget]
    by_cases hlisted : ∃ name ∈ names, relationName? name = some relation
    · obtain ⟨name, hname, hrelation⟩ := id hlisted
      obtain ⟨rfl, hne⟩ := relationName?_eq_some_iff.1 hrelation
      rw [if_pos hlisted, Option.map_eq_some_iff]
      simp only [texts, toOption_eq_some_iff, hne, hname, ne_eq, not_false_eq_true, true_and, eq_comm (b := rows)]
    · rw [if_neg hlisted]
      constructor
      · intro hnone
        cases hnone
      · rintro ⟨hne, hname, -⟩
        exact absurd ((exists_relationName?_iff hne).2 hname) hlisted

theorem exists_load_iff (hw : w.outputDir? = some dir) (hlist : h.list dir = .ok names) :
    (∃ relations, load h w = .ok relations) ↔ Readable h dir names := by
  constructor
  · rintro ⟨relations, hload⟩
    rw [load, hw] at hload
    obtain ⟨names', hlist', hload⟩ := bind_eq_ok_iff.1 hload
    obtain rfl := Except.ok.inj (hlist.symm.trans hlist')
    exact readText_of_foldlM hload
  · intro hread
    obtain ⟨relations, hload, -⟩ := exists_load_of_readable hw hlist hread
    exact ⟨relations, hload⟩

/-! ### Entries -/

/-- What loading the entries of a directory comes to. It fails if no text can be read from the entry of a
relation; else there is one relation for each such entry, with the rows that the entry holds. -/
structure Loads (entries : List (String × Entry)) (result : Except IoError Relations) : Prop where
  error : (∃ cause, result = .error cause) ↔
    ∃ relation entry, relation ≠ "" ∧ (relation ++ ".csv", entry) ∈ entries ∧ entry.Unreadable
  ok : ∀ relations, result = .ok relations → ∀ relation rows, relations.get? relation = some rows ↔
    relation ≠ "" ∧ ∃ entry text, (relation ++ ".csv", entry) ∈ entries ∧ entry.Holds text ∧ rows = .ofText text

theorem Lists.readText_eq_ok_iff (hlists : Lists h dir entries) {name text : String} :
    name ∈ entries.map Prod.fst ∧ h.readText (dir.join ⟨name⟩) = .ok text ↔
      ∃ entry, (name, entry) ∈ entries ∧ entry.Holds text := by
  rw [Host.readText_eq_ok_iff]
  constructor
  · rintro ⟨hname, executable, hfile⟩
    obtain ⟨⟨_, entry⟩, hentry, rfl⟩ := List.mem_map.1 hname
    rw [hlists.found _ hentry] at hfile
    exact ⟨entry, hentry, executable, Option.some.inj hfile⟩
  · rintro ⟨entry, hentry, executable, rfl⟩
    have hfound := hlists.found _ hentry
    exact ⟨List.mem_map.2 ⟨_, hentry, rfl⟩, executable, hfound⟩

theorem Lists.readable_iff (hlists : Lists h dir entries) : Readable h dir (entries.map Prod.fst) ↔
    ¬ ∃ relation entry, relation ≠ "" ∧ (relation ++ ".csv", entry) ∈ entries ∧ entry.Unreadable := by
  constructor
  · rintro hread ⟨relation, entry, hne, hentry, hunreadable⟩
    have hname : relation ++ ".csv" ∈ entries.map Prod.fst := List.mem_map.2 ⟨_, hentry, rfl⟩
    obtain ⟨text, htext⟩ := hread relation hne hname
    obtain ⟨other, hother, hholds⟩ := hlists.readText_eq_ok_iff.1 ⟨hname, htext⟩
    obtain rfl : entry = other :=
      Option.some.inj ((hlists.found _ hentry).symm.trans (hlists.found _ hother))
    exact Entry.not_unreadable_iff.2 ⟨text, hholds⟩ hunreadable
  · intro hnone relation hne hname
    obtain ⟨⟨_, entry⟩, hentry, rfl⟩ := List.mem_map.1 hname
    obtain ⟨text, hholds⟩ := Entry.not_unreadable_iff.1 fun hunreadable =>
      hnone ⟨relation, entry, hne, hentry, hunreadable⟩
    exact ⟨text, (hlists.readText_eq_ok_iff.2 ⟨entry, hentry, hholds⟩).2⟩

theorem Lists.loads (hlists : Lists h dir entries) (hw : w.outputDir? = some dir) : Loads entries (load h w) := by
  have hload := exists_load_iff hw hlists.names
  constructor
  · rw [← not_iff_not, ← hlists.readable_iff, ← hload]
    cases load h w <;> simp
  · intro relations hok relation rows
    obtain ⟨loaded, hloaded, hget⟩ := exists_load_of_readable hw hlists.names (hload.1 ⟨relations, hok⟩)
    obtain rfl := Except.ok.inj (hok.symm.trans hloaded)
    rw [hget]
    refine and_congr_right fun _ => ?_
    constructor
    · rintro ⟨hname, text, htext, hrows⟩
      obtain ⟨entry, hentry, hholds⟩ := hlists.readText_eq_ok_iff.1 ⟨hname, htext⟩
      exact ⟨entry, text, hentry, hholds, hrows⟩
    · rintro ⟨entry, text, hentry, hholds, hrows⟩
      obtain ⟨hname, htext⟩ := hlists.readText_eq_ok_iff.2 ⟨entry, hentry, hholds⟩
      exact ⟨hname, text, htext, hrows⟩

theorem Loads.alike {result result' : Except IoError Relations} (hloads : Loads entries result)
    (hloads' : Loads entries' result') (hsame : ∀ relation entry, relation ≠ "" →
      ((relation ++ ".csv", entry) ∈ entries ↔ (relation ++ ".csv", entry) ∈ entries')) :
    (∃ cause cause', result = .error cause ∧ result' = .error cause') ∨
      ∃ relations, result = .ok relations ∧ result' = .ok relations := by
  have herror : (∃ cause, result = .error cause) ↔ ∃ cause, result' = .error cause := by
    rw [hloads.error, hloads'.error]
    refine exists_congr fun relation => exists_congr fun entry => and_congr_right fun hne => ?_
    rw [hsame relation entry hne]
  cases result with
  | error cause =>
    obtain ⟨cause', hcause'⟩ := herror.1 ⟨cause, rfl⟩
    exact .inl ⟨cause, cause', rfl, hcause'⟩
  | ok relations =>
    cases result' with
    | error cause' =>
      obtain ⟨cause, hcause⟩ := herror.2 ⟨cause', rfl⟩
      cases hcause
    | ok relations' =>
      refine .inr ⟨relations, rfl, congrArg Except.ok (Dictionary.ext_get? fun relation => ?_)⟩
      refine Option.ext fun rows => ?_
      rw [hloads.ok relations rfl, hloads'.ok relations' rfl]
      refine and_congr_right fun hne => exists_congr fun entry => exists_congr fun text => ?_
      rw [hsame relation entry hne]

theorem Loads.mem_names_iff {relations : Relations} (hloads : Loads entries (.ok relations)) {relation : String} :
    relation ∈ relations.names ↔ relation ≠ "" ∧ ∃ entry, (relation ++ ".csv", entry) ∈ entries := by
  rw [Dictionary.mem_names_iff]
  simp only [hloads.ok relations rfl]
  constructor
  · rintro ⟨rows, hne, entry, text, hentry, -⟩
    exact ⟨hne, entry, hentry⟩
  · rintro ⟨hne, entry, hentry⟩
    have hreadable : ¬ entry.Unreadable := by
      intro hunreadable
      obtain ⟨cause, hcause⟩ := hloads.error.2 ⟨relation, entry, hne, hentry, hunreadable⟩
      cases hcause
    obtain ⟨text, hholds⟩ := Entry.not_unreadable_iff.1 hreadable
    exact ⟨_, hne, entry, text, hentry, hholds, rfl⟩

/-- Loading does not depend on the order of the output directory, nor on entries that no relation is named
for. It fails if a relation is named for a directory or for a file that is not in UTF-8. Else it gives just
the relations that entries are named for, each with the rows of its own file. -/
theorem load_in_any_order (hw : w.outputDir? = some dir) (hlists : Lists h dir entries) :
    ((∃ cause, load h w = .error cause) ↔ ∃ relation entry, relation ≠ "" ∧
      (relation ++ ".csv", entry) ∈ entries ∧ entry.Unreadable) ∧
    (∀ relations, load h w = .ok relations →
      (∀ relation, relation ∈ relations.names ↔
        relation ≠ "" ∧ ∃ entry, (relation ++ ".csv", entry) ∈ entries) ∧
      ∀ relation rows, relations.get? relation = some rows ↔ relation ≠ "" ∧
        ∃ entry text, (relation ++ ".csv", entry) ∈ entries ∧ entry.Holds text ∧ rows = .ofText text) ∧
    ∀ h' entries', Lists h' dir entries' → (entries.Perm entries' ∨ ∀ relation entry, relation ≠ "" →
        ((relation ++ ".csv", entry) ∈ entries ↔ (relation ++ ".csv", entry) ∈ entries')) →
      (∃ cause cause', load h w = .error cause ∧ load h' w = .error cause') ∨
        ∃ relations, load h w = .ok relations ∧ load h' w = .ok relations := by
  have hloads := hlists.loads hw
  refine ⟨hloads.error, fun relations hok => ⟨fun relation => ?_, hloads.ok relations hok⟩, ?_⟩
  · exact Loads.mem_names_iff (hok ▸ hloads)
  · intro h' entries' hlists' hsame
    refine hloads.alike (hlists'.loads hw) fun relation entry hne => ?_
    rcases hsame with hperm | hsame
    · exact hperm.mem_iff
    · exact hsame relation entry hne

namespace Shuffled

/-- An output directory, and entries in it: relations with points in their names, and others. -/
def directory : List (Place × Entry) :=
  [(["out"], .directory), (["out", "a.b.csv"], .file (Text.Utf8.encode "x\ty\n".toList) false),
    (["out", "..csv"], .file [] false), (["out", ".csv"], .file [0xFF] false), (["out", "c.txt"], .directory)]

def host (entries : List (Place × Entry)) : Host where
  files := ⟨entries⟩

def workspace : Workspace where
  root := ["tmp"]
  binary := ⟨"/souffle"⟩
  outputDir? := some ⟨"/out"⟩
  includeDir := ⟨"/tmp"⟩
  factDir := ⟨"/tmp"⟩
  libraryDir := ⟨"/tmp"⟩

theorem lists (entries : List (Place × Entry)) (h : entries = directory ∨ entries = directory.reverse) :
    Lists (host entries) ⟨"/out"⟩ (standing ⟨entries⟩ ["out"]) := by
  have hnames : ∀ name ∈ ["a.b.csv", "..csv", ".csv", "c.txt"],
      FilePath.Plain name ∧ FileTree.Fits ⟨"/out"⟩ name := by
    have hplain : ∀ name ∈ ["a.b.csv", "..csv", ".csv", "c.txt"], FilePath.Plain name := by decide
    have hfits : ∀ name ∈ ["a.b.csv", "..csv", ".csv", "c.txt"],
        ((⟨"/out"⟩ : FilePath).join ⟨name⟩).text.utf8ByteSize < FileTree.maxPath ∧
          name.utf8ByteSize ≤ FileTree.maxName := by decide +kernel
    exact fun name hname => ⟨hplain name hname, hfits name hname⟩
  rcases h with rfl | rfl
  · exact lists_standing rfl hnames
  · exact lists_standing rfl fun name hname => hnames name (List.mem_reverse.1 hname)

end Shuffled

open Shuffled in
theorem load_in_any_order_shuffled : ∃ relations, load (host directory) workspace = .ok relations ∧
    load (host directory.reverse) workspace = .ok relations ∧ relations.get? "a.b" = some [["x", "y"]] ∧
    "" ∉ relations.names := by
  obtain ⟨-, hok, hsame⟩ := load_in_any_order (w := workspace) rfl (lists directory (.inl rfl))
  have hperm : (standing ⟨directory⟩ ["out"]).Perm (standing ⟨directory.reverse⟩ ["out"]) := by decide +kernel
  have hloads : ∃ relations, load (host directory) workspace = .ok relations := ⟨_, rfl⟩
  have hlists' := lists directory.reverse (.inr rfl)
  rcases hsame _ _ hlists' (.inl hperm) with ⟨cause, -, hcause, -⟩ | ⟨relations, hload, hload'⟩
  · obtain ⟨relations, hload⟩ := hloads
    cases hload.symm.trans hcause
  · obtain ⟨hnames, hget⟩ := hok relations hload
    refine ⟨relations, hload, hload', (hget _ _).2 ⟨by decide, ?_⟩, fun hempty => ((hnames "").1 hempty).1 rfl⟩
    exact ⟨_, "x\ty\n", List.mem_cons_self, ⟨false, rfl⟩, by decide⟩

end Interpreter.Workspace

end PolicyCheck
