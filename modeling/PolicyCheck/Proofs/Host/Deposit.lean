import PolicyCheck.Proofs.Host.Place

/-!
# Files written into a directory

A file that cannot be written is left out. What stands where after the others have been written is one
of them or stood there before; if nothing had their names, then all that was there is kept, and the
files are listed after it and read back.
-/

namespace PolicyCheck

namespace FileTree

variable {t t' : FileTree} {directory place : Place} {dir : FilePath}

/-- All that stands in the one tree stands unchanged in the other. -/
def Keeps (t' t : FileTree) : Prop := ∀ q entry, t.entry? q = some entry → t'.entry? q = some entry

theorem Keeps.trans {t'' : FileTree} (h : t''.Keeps t') (h' : t'.Keeps t) : t''.Keeps t :=
  fun q entry hentry => h q entry (h' q entry hentry)

theorem Keeps.extends (h : t'.Keeps t) : t'.Extends t := by
  intro q hq
  exact isDirectoryAt_iff.2 (h q _ (isDirectoryAt_iff.1 hq))

theorem keeps_put {entry : Entry} (hvacant : t.entry? place = none) : (t.put place entry).Keeps t := by
  intro q other hother
  rw [entry?_put (ne_nil_of_entry?_eq_none hvacant), if_neg, hother]
  rintro rfl
  rw [hvacant] at hother
  cases hother

theorem Keeps.read {p : FilePath} {contents : Text.Octets} (h : t'.Keeps t)
    (hread : t.read directory p = .ok contents) : t'.read directory p = .ok contents := by
  obtain ⟨at', executable, hlocate, hentry⟩ := read_eq_ok_iff.1 hread
  exact read_eq_ok_iff.2 ⟨at', executable, locate_mono h.extends hlocate, h _ _ hentry⟩

/-- The tree after a file has been written and the file, or the tree alone if it could not be. -/
def stored (t : FileTree) (file : String × Text.Octets) :
    Except IoError FileTree → FileTree × List (String × Text.Octets)
  | .ok t' => (t', [file])
  | .error _ => (t, [])

/-- Writes files into a directory and gives those that could be written. -/
def deposit (t : FileTree) (directory : Place) (dir : FilePath) :
    List (String × Text.Octets) → FileTree × List (String × Text.Octets)
  | [] => (t, [])
  | file :: files =>
    let first := t.stored file (t.write directory (dir.join ⟨file.1⟩) file.2)
    let rest := first.1.deposit directory dir files
    (rest.1, first.2 ++ rest.2)

theorem deposit_of_ok {file : String × Text.Octets} {files : List (String × Text.Octets)}
    (hwrite : t.write directory (dir.join ⟨file.1⟩) file.2 = .ok t') :
    t.deposit directory dir (file :: files) =
      ((t'.deposit directory dir files).1, file :: (t'.deposit directory dir files).2) := by
  rw [deposit, hwrite]
  rfl

theorem deposit_of_error {file : String × Text.Octets} {files : List (String × Text.Octets)}
    {cause : IoError} (hwrite : t.write directory (dir.join ⟨file.1⟩) file.2 = .error cause) :
    t.deposit directory dir (file :: files) = t.deposit directory dir files := by
  rw [deposit, hwrite]
  rfl

theorem Sound.deposit (ht : t.Sound) (hdir : dir.isAbsolute = true) (directory : Place)
    (files : List (String × Text.Octets)) : (t.deposit directory dir files).1.Sound := by
  induction files generalizing t with
  | nil => exact ht
  | cons file files ih =>
    cases hwrite : t.write directory (dir.join ⟨file.1⟩) file.2 with
    | error cause =>
      rw [deposit_of_error hwrite]
      exact ih ht
    | ok t' =>
      rw [deposit_of_ok hwrite]
      exact ih (ht.write (FilePath.isAbsolute_join_left _ hdir) hwrite)

theorem extends_deposit (files : List (String × Text.Octets)) :
    t.Extends (t.deposit directory dir files).1 := by
  induction files generalizing t with
  | nil => exact fun q hq => hq
  | cons file files ih =>
    intro q hq
    cases hwrite : t.write directory (dir.join ⟨file.1⟩) file.2 with
    | error cause =>
      rw [deposit_of_error hwrite] at hq
      exact ih q hq
    | ok t' =>
      rw [deposit_of_ok hwrite] at hq
      have hdirectory := isDirectoryAt_iff.1 (ih q hq)
      obtain ⟨at', executable, -, hbefore, rfl⟩ := write_eq_ok_iff.1 hwrite
      rw [entry?_put (ne_nil_of_file hbefore)] at hdirectory
      by_cases hat : q = at'
      · rw [if_pos hat] at hdirectory
        cases hdirectory
      · rw [if_neg hat] at hdirectory
        exact isDirectoryAt_iff.2 hdirectory

theorem deposit_extends (files : List (String × Text.Octets)) :
    (t.deposit directory dir files).1.Extends t := by
  induction files generalizing t with
  | nil => exact fun q hq => hq
  | cons file files ih =>
    intro q hq
    cases hwrite : t.write directory (dir.join ⟨file.1⟩) file.2 with
    | error cause =>
      rw [deposit_of_error hwrite]
      exact ih q hq
    | ok t' =>
      rw [deposit_of_ok hwrite]
      exact ih q (extends_write hwrite q hq)

/-- A file that stands somewhere after files have been written into a directory is one of them or stood
there before. -/
theorem deposit_traced {files : List (String × Text.Octets)} {q : Place} {contents : Text.Octets}
    {executable : Bool} (hfind : t.find directory dir = .ok (place, .directory))
    (hplain : ∀ file ∈ files, FilePath.Plain file.1)
    (hentry : entry? (t.deposit directory dir files).1 q = some (.file contents executable)) :
    (∃ file ∈ (t.deposit directory dir files).2, q = place ++ [file.1] ∧ file.2 = contents) ∨
      ∃ executable', t.entry? q = some (.file contents executable') := by
  induction files generalizing t with
  | nil => exact .inr ⟨executable, hentry⟩
  | cons file files ih =>
    obtain ⟨hfile, hplain⟩ := List.forall_mem_cons.1 hplain
    cases hwrite : t.write directory (dir.join ⟨file.1⟩) file.2 with
    | error cause =>
      rw [deposit_of_error hwrite] at hentry ⊢
      exact ih hfind hplain hentry
    | ok t' =>
      rw [deposit_of_ok hwrite] at hentry ⊢
      have hextends := (extends_write hwrite).find hfind
      rcases ih hextends hplain hentry with ⟨other, hother, hcontents⟩ | ⟨executable', hthere⟩
      · exact .inl ⟨other, List.mem_cons_of_mem _ hother, hcontents⟩
      · obtain ⟨at', executable'', hlocate, hbefore, rfl⟩ := write_eq_ok_iff.1 hwrite
        obtain ⟨-, htarget⟩ := (locate_join_eq_ok_iff hfind hfile).1 hlocate
        obtain ⟨rfl, -⟩ := Target.mk.inj htarget
        rw [entry?_put (ne_nil_of_file hbefore)] at hthere
        by_cases hq : q = place ++ [file.1]
        · rw [if_pos hq] at hthere
          obtain ⟨hcontents, -⟩ := Entry.file.inj (Option.some.inj hthere)
          exact .inl ⟨file, List.mem_cons_self, hq, hcontents⟩
        · rw [if_neg hq] at hthere
          exact .inr ⟨executable', hthere⟩

/-- Files written into a directory in which nothing has their names: what was there is kept, the names
of those that could be written come after the others, and their contents are read back. -/
theorem deposit_spec {files : List (String × Text.Octets)}
    (hfind : t.find directory dir = .ok (place, .directory))
    (hplain : ∀ file ∈ files, FilePath.Plain file.1) (hdistinct : (files.map Prod.fst).Nodup)
    (hvacant : ∀ file ∈ files, t.entry? (place ++ [file.1]) = none) :
    let result := t.deposit directory dir files
    result.1.Keeps t ∧
      result.1.namesIn place = t.namesIn place ++ result.2.map Prod.fst ∧
      ∀ file ∈ result.2, result.1.read directory (dir.join ⟨file.1⟩) = .ok file.2 := by
  induction files generalizing t with
  | nil =>
    refine ⟨fun q entry hentry => hentry, (List.append_nil _).symm, fun file hfile => ?_⟩
    cases hfile
  | cons file files ih =>
    obtain ⟨hfile, hplain⟩ := List.forall_mem_cons.1 hplain
    obtain ⟨hnew, hdistinct⟩ := List.nodup_cons.1 hdistinct
    obtain ⟨hhere, hvacant⟩ := List.forall_mem_cons.1 hvacant
    cases hwrite : t.write directory (dir.join ⟨file.1⟩) file.2 with
    | error cause =>
      rw [deposit_of_error hwrite]
      exact ih hfind hplain hdistinct hvacant
    | ok t' =>
      rw [deposit_of_ok hwrite]
      obtain ⟨at', executable, hlocate, hthere, rfl⟩ := write_eq_ok_iff.1 hwrite
      obtain ⟨hfits, htarget⟩ := (locate_join_eq_ok_iff hfind hfile).1 hlocate
      obtain ⟨rfl, -⟩ := Target.mk.inj htarget
      have hplace := ne_nil_of_entry?_eq_none hhere
      have hkeeps : (t.put (place ++ [file.1]) (.file file.2 executable)).Keeps t := keeps_put hhere
      have hvacant' : ∀ other ∈ files,
          entry? (t.put (place ++ [file.1]) (.file file.2 executable)) (place ++ [other.1]) = none := by
        intro other hother
        rw [entry?_put hplace, if_neg, hvacant other hother]
        intro heq
        obtain ⟨-, hname⟩ := List.append_inj' heq rfl
        exact hnew (List.mem_map.2 ⟨other, hother, List.singleton_inj.1 hname⟩)
      obtain ⟨hrest, hnames, hread⟩ := ih (hkeeps.extends.find hfind) hplain hdistinct hvacant'
      refine ⟨hrest.trans hkeeps, ?_, List.forall_mem_cons.2 ⟨?_, hread⟩⟩
      · rw [hnames, namesIn_put_of_vacant hhere, nameBelow?_eq_some_iff.2 rfl]
        simp
      · refine hrest.read (read_eq_ok_iff.2 ⟨_, executable, locate_mono hkeeps.extends hlocate, ?_⟩)
        rw [entry?_put hplace, if_pos rfl]

end FileTree

end PolicyCheck
