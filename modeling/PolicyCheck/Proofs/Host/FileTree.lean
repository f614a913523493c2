import Mathlib.Data.List.Induction
import PolicyCheck.Host.FileTree
import PolicyCheck.Proofs.Except
import PolicyCheck.Proofs.Host.FilePath

/-!
# Trees of files

What stands where after an entry has been put or taken out, and where a path leads. In a `Closed`
tree every entry lies in a directory, so nothing lies in a directory that has just been made. A path
that leads somewhere leads there still when there are more directories.
-/

namespace PolicyCheck

namespace FileTree

variable {t t' : FileTree} {place directory q : Place} {entry : Entry}

/-! ### What stands at a place -/

theorem ne_nil_of_entry?_eq_none (h : t.entry? place = none) : place ≠ [] := by
  rintro rfl
  cases h

theorem isDirectoryAt_iff : t.isDirectoryAt place = true ↔ t.entry? place = some .directory := by
  rw [isDirectoryAt, beq_iff_eq]

theorem lookup_replace (entries : List (Place × Entry)) :
    (entries.map fun e => if e.1 = place then (place, entry) else e).lookup place =
      (entries.lookup place).map fun _ => entry := by
  induction entries with
  | nil => rfl
  | cons e es ih =>
    obtain ⟨at', old⟩ := e
    by_cases hat : at' = place
    · simp [hat]
    · have hne : (place == at') = false := beq_eq_false_iff_ne.2 (Ne.symm hat)
      simp only [List.map_cons, if_neg hat, List.lookup_cons, hne, ih]

theorem lookup_replace_of_ne (hq : q ≠ place) (entries : List (Place × Entry)) :
    (entries.map fun e => if e.1 = place then (place, entry) else e).lookup q = entries.lookup q := by
  induction entries with
  | nil => rfl
  | cons e es ih =>
    obtain ⟨at', old⟩ := e
    by_cases hat : at' = place
    · have hne : (q == at') = false := beq_eq_false_iff_ne.2 (hat ▸ hq)
      simp only [List.map_cons, if_pos hat, List.lookup_cons, hne, beq_eq_false_iff_ne.2 hq, ih]
    · simp only [List.map_cons, if_neg hat, List.lookup_cons, ih]

/-- After a put, the entry stands at its place and all others stand where they stood. -/
theorem entry?_put (hplace : place ≠ []) :
    entry? (t.put place entry) q = if q = place then some entry else t.entry? q := by
  by_cases hroot : q = []
  · subst hroot
    rw [if_neg (Ne.symm hplace)]
    rfl
  · rw [ entry?, entry?, if_neg hroot, if_neg hroot, put]
    by_cases hthere : (t.entries.lookup place).isSome = true
    · rw [if_pos hthere]
      by_cases hq : q = place
      · obtain ⟨old, hold⟩ := Option.isSome_iff_exists.1 hthere
        rw [if_pos hq, hq, lookup_replace, hold, Option.map_some]
      · rw [if_neg hq, lookup_replace_of_ne hq]
    · rw [if_neg hthere, List.lookup_append]
      by_cases hq : q = place
      · rw [if_pos hq, hq, Option.not_isSome_iff_eq_none.1 hthere, Option.none_or]
        simp
      · have hne : (q == place) = false := beq_eq_false_iff_ne.2 hq
        rw [if_neg hq, List.lookup_cons, hne, List.lookup_nil, Option.or_none]

theorem put_of_vacant (h : t.entry? place = none) :
    t.put place entry = ⟨t.entries ++ [(place, entry)]⟩ := by
  rw [ entry?, if_neg (ne_nil_of_entry?_eq_none h)] at h
  rw [put, h, if_neg (by simp)]

theorem isDirectoryAt_put (hplace : place ≠ []) (h : t.entry? place = some .directory → entry = .directory)
    (hq : t.isDirectoryAt q = true) : (t.put place entry).isDirectoryAt q = true := by
  rw [isDirectoryAt_iff] at hq ⊢
  rw [entry?_put hplace]
  by_cases hat : q = place
  · rw [if_pos hat, h (hat ▸ hq)]
  · rw [if_neg hat, hq]

theorem entry?_prune (hq : ¬ place <+: q) : entry? (t.prune place) q = t.entry? q := by
  rw [ entry?, entry?]
  split
  · rfl
  · rw [prune]
    induction t.entries with
    | nil => rfl
    | cons e es ih =>
      obtain ⟨at', old⟩ := e
      by_cases hbelow : place.isPrefixOf at' = true
      · have hne : (q == at') = false := by
          refine beq_eq_false_iff_ne.2 fun hat => hq ?_
          exact hat ▸ List.isPrefixOf_iff_prefix.1 hbelow
        rw [List.filter_cons_of_neg (by simp [hbelow]), ih, List.lookup_cons, hne]
      · rw [List.filter_cons_of_pos (by simp [hbelow]), List.lookup_cons, List.lookup_cons, ih]

theorem entry?_prune_below (hplace : place ≠ []) (hq : place <+: q) : entry? (t.prune place) q = none := by
  have hne : q ≠ [] := by
    rintro rfl
    exact hplace (List.prefix_nil.1 hq)
  rw [ entry?, if_neg hne, prune, List.lookup_eq_none_iff]
  intro e he
  have hout := (List.mem_filter.1 he).2
  refine bne_iff_ne.2 ?_
  rintro rfl
  rw [List.isPrefixOf_iff_prefix.2 hq] at hout
  cases hout

/-! ### The names in a directory -/

theorem nameBelow?_eq_some_iff {name : String} :
    nameBelow? directory place = some name ↔ place = directory ++ [name] := by
  rw [nameBelow?]
  constructor
  · intro h
    cases hlast : place.getLast? with
    | none => simp [hlast] at h
    | some last =>
      simp only [hlast, ite_eq_iff, reduceCtorEq, and_false, or_false, Option.some.injEq] at h
      obtain ⟨hplace, rfl⟩ := h
      exact hplace
  · rintro rfl
    simp

theorem mem_namesIn {name : String} :
    name ∈ t.namesIn directory ↔ ∃ entry, (directory ++ [name], entry) ∈ t.entries := by
  simp only [namesIn, List.mem_filterMap, nameBelow?_eq_some_iff, Prod.exists]
  constructor
  · rintro ⟨at', entry, hmem, rfl⟩
    exact ⟨entry, hmem⟩
  · rintro ⟨entry, hmem⟩
    exact ⟨_, entry, hmem, rfl⟩

theorem entry?_eq_none_of_namesIn {name : String} (h : name ∉ t.namesIn directory) :
    t.entry? (directory ++ [name]) = none := by
  rw [ entry?, if_neg (by simp)]
  refine Option.eq_none_iff_forall_ne_some.2 fun entry hentry => h (mem_namesIn.2 ⟨entry, ?_⟩)
  obtain ⟨before, after, hentries, -⟩ := List.lookup_eq_some_iff.1 hentry
  exact hentries ▸ List.mem_append_right before List.mem_cons_self

theorem mem_namesIn_iff {name : String} :
    name ∈ t.namesIn directory ↔ t.entry? (directory ++ [name]) ≠ none := by
  constructor
  · intro hname
    obtain ⟨entry, hmem⟩ := mem_namesIn.1 hname
    rw [ entry?, if_neg (by simp), ← Option.isSome_iff_ne_none, List.lookup_isSome_iff]
    exact ⟨_, hmem, beq_self_eq_true _⟩
  · intro hthere
    by_contra hname
    exact hthere (entry?_eq_none_of_namesIn hname)

theorem namesIn_put_of_vacant (h : t.entry? place = none) :
    (t.put place entry).namesIn directory = t.namesIn directory ++ (nameBelow? directory place).toList := by
  rw [put_of_vacant h, namesIn, namesIn, List.filterMap_append, List.filterMap_cons]
  cases nameBelow? directory place with
  | none => rfl
  | some name => rfl

theorem namesIn_put_of_isSome (h : (t.entries.lookup place).isSome = true) :
    (t.put place entry).namesIn directory = t.namesIn directory := by
  rw [put, if_pos h, namesIn, namesIn, List.filterMap_map]
  refine List.filterMap_congr fun e _ => ?_
  rw [Function.comp_apply]
  by_cases hat : e.1 = place
  · rw [if_pos hat, hat]
  · rw [if_neg hat]

theorem namesIn_put_of_ne (h : ∀ name, place ≠ directory ++ [name]) (hplace : place ≠ []) :
    (t.put place entry).namesIn directory = t.namesIn directory := by
  cases hthere : t.entries.lookup place with
  | none =>
    have hname : nameBelow? directory place = none :=
      Option.eq_none_iff_forall_ne_some.2 fun name hname => h name (nameBelow?_eq_some_iff.1 hname)
    rw [namesIn_put_of_vacant (by rw [ entry?, if_neg hplace, hthere]), hname, Option.toList_none,
      List.append_nil]
  | some old => exact namesIn_put_of_isSome (by rw [hthere, Option.isSome_some])

/-! ### Trees in which every entry lies in a directory -/

def Closed (t : FileTree) : Prop := ∀ e ∈ t.entries, t.isDirectoryAt e.1.dropLast = true

instance (t : FileTree) : Decidable t.Closed := inferInstanceAs (Decidable (∀ e ∈ t.entries, _))

namespace Closed

theorem above (ht : t.Closed) (h : t.entry? place = some entry) :
    t.isDirectoryAt place.dropLast = true := by
  by_cases hroot : place = []
  · subst hroot
    rfl
  · rw [ entry?, if_neg hroot] at h
    obtain ⟨before, after, hentries, -⟩ := List.lookup_eq_some_iff.1 h
    exact ht (place, entry) (hentries ▸ List.mem_append_right before List.mem_cons_self)

theorem isDirectoryAt_above (ht : t.Closed) (h : t.isDirectoryAt place = true) (hq : q <+: place) :
    t.isDirectoryAt q = true := by
  obtain ⟨names, rfl⟩ := hq
  induction names using List.reverseRecOn with
  | nil => rwa [List.append_nil] at h
  | append_singleton names name ih =>
    have habove := ht.above (isDirectoryAt_iff.1 h)
    rw [← List.append_assoc, List.dropLast_concat] at habove
    exact ih habove

theorem namesIn_eq_nil (ht : t.Closed) (h : t.isDirectoryAt directory = false) :
    t.namesIn directory = [] := by
  refine List.eq_nil_iff_forall_not_mem.2 fun name hname => ?_
  obtain ⟨entry, hmem⟩ := mem_namesIn.1 hname
  have hdirectory := ht _ hmem
  rw [List.dropLast_concat, h] at hdirectory
  cases hdirectory

theorem put (ht : t.Closed) (hplace : place ≠ []) (habove : t.isDirectoryAt place.dropLast = true)
    (h : t.entry? place = some .directory → entry = .directory) : (t.put place entry).Closed := by
  intro e he
  refine isDirectoryAt_put hplace h ?_
  rw [FileTree.put] at he
  split at he
  · obtain ⟨old, hold, rfl⟩ := List.mem_map.1 he
    by_cases hat : old.1 = place
    · rw [if_pos hat]
      exact habove
    · rw [if_neg hat]
      exact ht old hold
  · rcases List.mem_append.1 he with he | he
    · exact ht e he
    · rw [List.mem_singleton.1 he]
      exact habove

/-- What is left after taking out a place lies in directories that are left: a directory above an
entry is below the place only if the entry is. -/
theorem prune (ht : t.Closed) (place : Place) : (t.prune place).Closed := by
  intro e he
  obtain ⟨hmem, hout⟩ := List.mem_filter.1 he
  rw [isDirectoryAt_iff, entry?_prune, isDirectoryAt_iff.1 (ht e hmem)]
  intro hbelow
  simp [List.isPrefixOf_iff_prefix.2 (hbelow.trans (List.dropLast_prefix e.1))] at hout

end Closed

/-! ### Where a path leads -/

/-- Every directory of the one tree is a directory of the other. -/
def Extends (t' t : FileTree) : Prop := ∀ q, t.isDirectoryAt q = true → t'.isDirectoryAt q = true

theorem fitting_eq_ok_iff {name name' : String} :
    fitting name = .ok name' ↔ name.utf8ByteSize ≤ maxName ∧ name = name' := by
  rw [fitting]
  by_cases hfits : name.utf8ByteSize ≤ maxName
  · simp [hfits]
  · simp [hfits]

theorem enter_name_eq_ok_iff {name : String} (hname : ¬ (name = "." ∨ name = "..")) :
    t.enter directory name = .ok place ↔
      name.utf8ByteSize ≤ maxName ∧ place = directory ++ [name] ∧ t.isDirectoryAt place = true := by
  obtain ⟨hcurrent, hparent⟩ := not_or.1 hname
  rw [enter, if_neg hcurrent, if_neg hparent, bind_eq_ok_iff]
  simp only [fitting_eq_ok_iff]
  constructor
  · rintro ⟨_, ⟨hfits, rfl⟩, h⟩
    cases hentry : t.entry? (directory ++ [name]) with
    | none =>
      rw [hentry] at h
      cases h
    | some entry =>
      rw [hentry] at h
      cases entry with
      | directory =>
        obtain rfl := Except.ok.inj h
        exact ⟨hfits, rfl, isDirectoryAt_iff.2 hentry⟩
      | file contents executable => cases h
  · rintro ⟨hfits, rfl, hdirectory⟩
    refine ⟨name, ⟨hfits, rfl⟩, ?_⟩
    rw [isDirectoryAt_iff.1 hdirectory]
    rfl

theorem enter_eq_ok_iff {name : String} :
    t.enter directory name = .ok place ↔
      (name = "." ∧ place = directory) ∨ (name = ".." ∧ place = directory.dropLast) ∨
        (¬ (name = "." ∨ name = "..") ∧ name.utf8ByteSize ≤ maxName ∧ place = directory ++ [name] ∧
          t.isDirectoryAt place = true) := by
  by_cases hname : name = "." ∨ name = ".."
  · rcases hname with rfl | rfl
    · change Except.ok directory = Except.ok place ↔ _
      rw [Except.ok.injEq, eq_comm]
      simp
    · change Except.ok directory.dropLast = Except.ok place ↔ _
      rw [Except.ok.injEq, eq_comm]
      simp
  · rw [enter_name_eq_ok_iff hname]
    obtain ⟨hcurrent, hparent⟩ := not_or.1 hname
    simp [hcurrent, hparent]

theorem enter_mono {name : String} (hextends : t'.Extends t)
    (h : t.enter directory name = .ok place) : t'.enter directory name = .ok place := by
  rw [enter_eq_ok_iff] at h ⊢
  rcases h with hcurrent | hparent | ⟨hname, hfits, hplace, hdirectory⟩
  · exact .inl hcurrent
  · exact .inr (.inl hparent)
  · exact .inr (.inr ⟨hname, hfits, hplace, hextends _ hdirectory⟩)

theorem Closed.enter {name : String} (ht : t.Closed) (hdirectory : t.isDirectoryAt directory = true)
    (h : t.enter directory name = .ok place) : t.isDirectoryAt place = true := by
  rcases enter_eq_ok_iff.1 h with ⟨-, rfl⟩ | ⟨-, rfl⟩ | ⟨-, -, -, hplace⟩
  · exact hdirectory
  · exact ht.above (isDirectoryAt_iff.1 hdirectory)
  · exact hplace

theorem foldlM_enter_mono {names : List String} (hextends : t'.Extends t)
    (h : names.foldlM t.enter directory = .ok place) : names.foldlM t'.enter directory = .ok place := by
  induction names generalizing directory with
  | nil => exact h
  | cons name names ih =>
    rw [List.foldlM_cons] at h ⊢
    obtain ⟨next, hnext, h⟩ := bind_eq_ok_iff.1 h
    exact bind_eq_ok_iff.2 ⟨next, enter_mono hextends hnext, ih h⟩

theorem Closed.foldlM_enter {names : List String} (ht : t.Closed)
    (hdirectory : t.isDirectoryAt directory = true)
    (h : names.foldlM t.enter directory = .ok place) : t.isDirectoryAt place = true := by
  induction names generalizing directory with
  | nil =>
    obtain rfl := Except.ok.inj h
    exact hdirectory
  | cons name names ih =>
    rw [List.foldlM_cons] at h
    obtain ⟨next, hnext, h⟩ := bind_eq_ok_iff.1 h
    exact ih (ht.enter hdirectory hnext) h

def Usable (p : FilePath) : Prop :=
  '\x00' ∉ p.text.toList ∧ p.text ≠ "" ∧ p.text.utf8ByteSize < maxPath

/-- The directory in which the walk of a path begins. -/
def base (directory : Place) (p : FilePath) : Place := if p.isAbsolute then [] else directory

/-- The last step of a path: the walk of the names before it has led to a directory. -/
def arrive (t : FileTree) (p : FilePath) (above : Place) : Except IoError Target :=
  match p.names.getLast? with
  | none => .ok ⟨above, false⟩
  | some name =>
    if name = "." ∨ name = ".." then (t.enter above name).map fun place => ⟨place, false⟩
    else (fitting name).map fun name => ⟨above ++ [name], p.pieces.getLast? = some ""⟩

theorem locate_eq_ok_iff {p : FilePath} {target : Target} :
    t.locate directory p = .ok target ↔ Usable p ∧
      ∃ above, p.names.dropLast.foldlM t.enter (base directory p) = .ok above ∧
        t.arrive p above = .ok target := by
  rw [locate, Usable]
  by_cases hnul : '\x00' ∈ p.text.toList
  · rw [if_pos hnul]
    simp [hnul]
  · by_cases hempty : p.text = ""
    · simp [hempty]
    · by_cases hlong : maxPath ≤ p.text.utf8ByteSize
      · rw [if_neg hnul, if_neg (by simpa using hempty), if_pos hlong]
        simp only [Nat.not_lt.2 hlong, and_false, false_and, iff_false]
        exact fun h => nomatch h
      · rw [if_neg hnul, if_neg (by simpa using hempty), if_neg hlong]
        simp only [hnul, hempty, Nat.not_le.1 hlong, not_false_eq_true, ne_eq, true_and]
        rw [← bind_eq_ok_iff]
        refine iff_of_eq (congrArg (· = _) (congrArg _ (funext fun above => ?_)))
        rw [arrive]
        change (match p.names.getLast? with
          | none => _
          | some name => _ : Except IoError Target) = _
        cases p.names.getLast? with
        | none => rfl
        | some name =>
          by_cases hname : name = "." ∨ name = ".."
          · simp only [if_pos hname]
            cases t.enter above name <;> rfl
          · simp only [if_neg hname]
            cases fitting name <;> rfl

theorem base_of_isAbsolute {p : FilePath} (hp : p.isAbsolute = true) : base directory p = [] := if_pos hp

theorem locate_of_isAbsolute {p : FilePath} (hp : p.isAbsolute = true) (directory directory' : Place) :
    t.locate directory p = t.locate directory' p := by
  simp only [locate, if_pos hp]

theorem find_of_isAbsolute {p : FilePath} (hp : p.isAbsolute = true) (directory directory' : Place) :
    t.find directory p = t.find directory' p := by
  rw [find, find, locate_of_isAbsolute hp directory directory']

theorem read_of_isAbsolute {p : FilePath} (hp : p.isAbsolute = true) (directory directory' : Place) :
    t.read directory p = t.read directory' p := by
  rw [read, read, find_of_isAbsolute hp directory directory']

theorem locate_mono {p : FilePath} {target : Target} (hextends : t'.Extends t)
    (h : t.locate directory p = .ok target) : t'.locate directory p = .ok target := by
  obtain ⟨husable, above, hwalk, harrive⟩ := locate_eq_ok_iff.1 h
  refine locate_eq_ok_iff.2 ⟨husable, above, foldlM_enter_mono hextends hwalk, ?_⟩
  rw [arrive] at harrive ⊢
  cases hlast : p.names.getLast? with
  | none => rwa [hlast] at harrive
  | some name =>
    rw [hlast] at harrive
    by_cases hname : name = "." ∨ name = ".."
    · simp only [if_pos hname] at harrive ⊢
      cases henter : t.enter above name with
      | error cause =>
        rw [henter] at harrive
        cases harrive
      | ok place =>
        rw [henter] at harrive
        rwa [enter_mono hextends henter]
    · simpa only [if_neg hname] using harrive

theorem Closed.locate {p : FilePath} {target : Target} (ht : t.Closed) (hp : p.isAbsolute = true)
    (h : t.locate directory p = .ok target) : t.isDirectoryAt target.place.dropLast = true := by
  obtain ⟨husable, above, hwalk, harrive⟩ := locate_eq_ok_iff.1 h
  rw [base_of_isAbsolute hp] at hwalk
  have habove := ht.foldlM_enter rfl hwalk
  rw [arrive] at harrive
  split at harrive
  · obtain rfl := Except.ok.inj harrive
    exact ht.above (isDirectoryAt_iff.1 habove)
  · rename_i name hlast
    split at harrive
    · obtain ⟨place, henter, rfl⟩ := map_eq_ok_iff.1 harrive
      exact ht.above (isDirectoryAt_iff.1 (ht.enter habove henter))
    · obtain ⟨_, -, rfl⟩ := map_eq_ok_iff.1 harrive
      rwa [List.dropLast_concat]

/-! ### The paths of a directory's entries -/

theorem find_eq_directory_iff {p : FilePath} :
    t.find directory p = .ok (place, .directory) ↔
      ∃ slashed, t.locate directory p = .ok ⟨place, slashed⟩ ∧ t.isDirectoryAt place = true := by
  rw [find, bind_eq_ok_iff]
  constructor
  · rintro ⟨⟨at', slashed⟩, hlocate, h⟩
    cases hentry : t.entry? at' with
    | none =>
      rw [hentry] at h
      cases h
    | some entry =>
      rw [hentry] at h
      cases entry with
      | directory =>
        obtain ⟨rfl, -⟩ := Prod.mk.inj (Except.ok.inj h)
        exact ⟨slashed, hlocate, isDirectoryAt_iff.2 hentry⟩
      | file contents executable =>
        cases slashed <;> cases h
  · rintro ⟨slashed, hlocate, hdirectory⟩
    refine ⟨_, hlocate, ?_⟩
    rw [isDirectoryAt_iff.1 hdirectory]
    rfl

theorem Extends.find {p : FilePath} (hextends : t'.Extends t)
    (h : t.find directory p = .ok (place, .directory)) :
    t'.find directory p = .ok (place, .directory) := by
  obtain ⟨slashed, hlocate, hdirectory⟩ := find_eq_directory_iff.1 h
  exact find_eq_directory_iff.2 ⟨slashed, locate_mono hextends hlocate, hextends _ hdirectory⟩

theorem foldlM_enter_of_find {p : FilePath} (h : t.find directory p = .ok (place, .directory)) :
    p.names.foldlM t.enter (base directory p) = .ok place := by
  obtain ⟨slashed, hlocate, hdirectory⟩ := find_eq_directory_iff.1 h
  obtain ⟨-, above, hwalk, harrive⟩ := locate_eq_ok_iff.1 hlocate
  rw [arrive] at harrive
  split at harrive
  · rename_i hlast
    rw [List.getLast?_eq_none_iff.1 hlast] at hwalk ⊢
    obtain ⟨rfl, -⟩ := Target.mk.inj (Except.ok.inj harrive)
    exact hwalk
  · rename_i name hlast
    obtain ⟨before, hnames⟩ := List.getLast?_eq_some_iff.1 hlast
    rw [hnames, List.dropLast_concat] at hwalk
    rw [hnames, List.foldlM_append]
    refine bind_eq_ok_iff.2 ⟨above, hwalk, ?_⟩
    rw [List.foldlM_cons]
    refine bind_eq_ok_iff.2 ⟨place, ?_, rfl⟩
    split at harrive
    · obtain ⟨_, henter, htarget⟩ := map_eq_ok_iff.1 harrive
      obtain ⟨rfl, -⟩ := Target.mk.inj htarget
      exact henter
    · rename_i hname
      obtain ⟨_, hfitting, htarget⟩ := map_eq_ok_iff.1 harrive
      obtain ⟨hfits, rfl⟩ := fitting_eq_ok_iff.1 hfitting
      obtain ⟨rfl, -⟩ := Target.mk.inj htarget
      exact (enter_name_eq_ok_iff hname).2 ⟨hfits, rfl, hdirectory⟩

def Fits (p : FilePath) (name : String) : Prop :=
  (p.join ⟨name⟩).text.utf8ByteSize < maxPath ∧ name.utf8ByteSize ≤ maxName

/-- The path of an entry of a directory leads to the place of its name there. -/
theorem locate_join_eq_ok_iff {p : FilePath} {name : String} {target : Target}
    (h : t.find directory p = .ok (place, .directory)) (hname : FilePath.Plain name) :
    t.locate directory (p.join ⟨name⟩) = .ok target ↔ Fits p name ∧ target = ⟨place ++ [name], false⟩ := by
  obtain ⟨slashed, hlocate, -⟩ := find_eq_directory_iff.1 h
  obtain ⟨⟨hnul, hempty, -⟩, -⟩ := locate_eq_ok_iff.1 hlocate
  have hwalk := foldlM_enter_of_find h
  have hbase : base directory (p.join ⟨name⟩) = base directory p := by
    rw [base, base, FilePath.isAbsolute_join hempty hname]
  have harrive : t.arrive (p.join ⟨name⟩) place =
      (fitting name).map fun name => ⟨place ++ [name], false⟩ := by
    rw [arrive, FilePath.names_join hempty hname, List.getLast?_concat,
      FilePath.getLast?_pieces_join hempty hname]
    simp [hname.nonempty, hname.notCurrent, hname.notParent]
  rw [locate_eq_ok_iff, FilePath.names_join hempty hname, List.dropLast_concat, hbase, hwalk, Usable,
    FilePath.nul_mem_join hempty hname, Fits]
  constructor
  · rintro ⟨⟨-, -, hshort⟩, above, habove, htarget⟩
    obtain rfl := Except.ok.inj habove
    rw [harrive] at htarget
    obtain ⟨_, hfitting, rfl⟩ := map_eq_ok_iff.1 htarget
    obtain ⟨hfits, rfl⟩ := fitting_eq_ok_iff.1 hfitting
    exact ⟨⟨hshort, hfits⟩, rfl⟩
  · rintro ⟨⟨hshort, hfits⟩, rfl⟩
    refine ⟨⟨hnul, FilePath.join_ne_empty hempty hname, hshort⟩, place, rfl, ?_⟩
    rw [harrive, fitting_eq_ok_iff.2 ⟨hfits, rfl⟩]
    rfl

/-! ### Operations -/

theorem makeDirectory_eq_ok_iff {p : FilePath} :
    t.makeDirectory directory p = .ok t' ↔
      ∃ target, t.locate directory p = .ok target ∧ t.entry? target.place = none ∧
        t' = t.put target.place .directory := by
  rw [makeDirectory, bind_eq_ok_iff]
  refine exists_congr fun target => and_congr_right fun _ => ?_
  cases t.entry? target.place with
  | none =>
    constructor
    · exact fun h => ⟨rfl, (Except.ok.inj h).symm⟩
    · exact fun h => congrArg Except.ok h.2.symm
  | some entry =>
    constructor
    · exact fun h => nomatch h
    · exact fun h => nomatch h.1

/-- A file is written where a path that asks for no directory leads, unless a directory stands there. -/
theorem write_eq_ok_iff {p : FilePath} {contents : Text.Octets} :
    t.write directory p contents = .ok t' ↔
      ∃ place executable, t.locate directory p = .ok ⟨place, false⟩ ∧
        (( t.entry? place = none ∧ executable = false) ∨
          ∃ old, t.entry? place = some (.file old executable)) ∧
        t' = t.put place (.file contents executable) := by
  rw [write, bind_eq_ok_iff]
  constructor
  · rintro ⟨⟨place, slashed⟩, hlocate, h⟩
    cases slashed with
    | true => cases h
    | false =>
      cases hentry : t.entry? place with
      | none =>
        simp only [hentry] at h
        exact ⟨place, false, hlocate, .inl ⟨hentry, rfl⟩, (Except.ok.inj h).symm⟩
      | some entry =>
        simp only [hentry] at h
        cases entry with
        | directory => cases h
        | file old executable =>
          exact ⟨place, executable, hlocate, .inr ⟨old, hentry⟩, (Except.ok.inj h).symm⟩
  · rintro ⟨place, executable, hlocate, hthere, rfl⟩
    refine ⟨_, hlocate, ?_⟩
    rcases hthere with ⟨hentry, rfl⟩ | ⟨old, hentry⟩
    · simp only [hentry]
      rfl
    · simp only [hentry]
      rfl

theorem read_eq_ok_iff {p : FilePath} {contents : Text.Octets} :
    t.read directory p = .ok contents ↔
      ∃ place executable, t.locate directory p = .ok ⟨place, false⟩ ∧
        t.entry? place = some (.file contents executable) := by
  rw [read, bind_eq_ok_iff]
  simp only [find, bind_eq_ok_iff]
  constructor
  · rintro ⟨found, ⟨⟨place, slashed⟩, hlocate, hfound⟩, h⟩
    cases hentry : t.entry? place with
    | none =>
      simp only [hentry] at hfound
      cases hfound
    | some entry =>
      simp only [hentry] at hfound
      cases entry with
      | directory =>
        obtain rfl := Except.ok.inj hfound
        cases h
      | file contents' executable =>
        cases slashed with
        | true => cases hfound
        | false =>
          obtain rfl := Except.ok.inj hfound
          obtain rfl := Except.ok.inj h
          exact ⟨place, executable, hlocate, hentry⟩
  · rintro ⟨place, executable, hlocate, hentry⟩
    refine ⟨(place, .file contents executable), ⟨_, hlocate, ?_⟩, rfl⟩
    rw [hentry]
    rfl

theorem list_eq_ok_iff {p : FilePath} {names : List String} :
    t.list directory p = .ok names ↔
      ∃ place, t.find directory p = .ok (place, .directory) ∧ t.namesIn place = names := by
  rw [list, bind_eq_ok_iff]
  constructor
  · rintro ⟨⟨place, entry⟩, hfind, hnames⟩
    cases entry with
    | file contents executable => cases hnames
    | directory => exact ⟨place, hfind, Except.ok.inj hnames⟩
  · rintro ⟨place, hfind, rfl⟩
    exact ⟨_, hfind, rfl⟩

theorem ne_nil_of_file {executable : Bool} (h : ( t.entry? place = none ∧ executable = false) ∨
    ∃ old, t.entry? place = some (.file old executable)) : place ≠ [] := by
  rintro rfl
  rcases h with ⟨hroot, -⟩ | ⟨old, hroot⟩
  · cases hroot
  · cases hroot

theorem extends_put (hplace : place ≠ []) (h : t.isDirectoryAt place = false) :
    (t.put place entry).Extends t := by
  intro q hq
  refine isDirectoryAt_put hplace (fun hdirectory => ?_) hq
  rw [isDirectoryAt_iff.2 hdirectory] at h
  cases h

theorem Closed.makeDirectory {p : FilePath} (ht : t.Closed) (hp : p.isAbsolute = true)
    (h : t.makeDirectory directory p = .ok t') : t'.Closed ∧ t'.Extends t := by
  obtain ⟨target, hlocate, hvacant, rfl⟩ := makeDirectory_eq_ok_iff.1 h
  have hplace := ne_nil_of_entry?_eq_none hvacant
  refine ⟨ht.put hplace (ht.locate hp hlocate) fun _ => rfl, extends_put hplace ?_⟩
  rw [isDirectoryAt, hvacant]
  rfl

theorem isDirectoryAt_of_file {executable : Bool} (h : ( t.entry? place = none ∧ executable = false) ∨
    ∃ old, t.entry? place = some (.file old executable)) : t.isDirectoryAt place = false := by
  rw [isDirectoryAt]
  rcases h with ⟨hentry, -⟩ | ⟨old, hentry⟩
  · rw [hentry]
    rfl
  · rw [hentry]
    rfl

theorem extends_write {p : FilePath} {contents : Text.Octets}
    (h : t.write directory p contents = .ok t') : t'.Extends t := by
  obtain ⟨place, executable, -, hthere, rfl⟩ := write_eq_ok_iff.1 h
  exact extends_put (ne_nil_of_file hthere) (isDirectoryAt_of_file hthere)

theorem read_of_write {p : FilePath} {contents : Text.Octets}
    (h : t.write directory p contents = .ok t') : t'.read directory p = .ok contents := by
  have hextends := extends_write h
  obtain ⟨place, executable, hlocate, hthere, rfl⟩ := write_eq_ok_iff.1 h
  refine read_eq_ok_iff.2 ⟨place, executable, locate_mono hextends hlocate, ?_⟩
  rw [entry?_put (ne_nil_of_file hthere), if_pos rfl]

theorem Closed.write {p : FilePath} {contents : Text.Octets} (ht : t.Closed) (hp : p.isAbsolute = true)
    (h : t.write directory p contents = .ok t') : t'.Closed := by
  obtain ⟨place, executable, hlocate, hthere, rfl⟩ := write_eq_ok_iff.1 h
  refine ht.put (ne_nil_of_file hthere) (ht.locate hp hlocate) fun hdirectory => ?_
  cases (isDirectoryAt_of_file hthere).symm.trans (isDirectoryAt_iff.2 hdirectory)

theorem Closed.find_made {p : FilePath} {target : Target} (ht : t.Closed)
    (hlocate : t.locate directory p = .ok target) (hvacant : t.entry? target.place = none) :
    (t.put target.place .directory).find directory p = .ok (target.place, .directory) ∧
      (t.put target.place .directory).namesIn target.place = [] := by
  have hplace := ne_nil_of_entry?_eq_none hvacant
  have hnot : t.isDirectoryAt target.place = false := by
    rw [isDirectoryAt, hvacant]
    rfl
  constructor
  · refine find_eq_directory_iff.2 ⟨target.slashed, locate_mono (extends_put hplace hnot) hlocate, ?_⟩
    rw [isDirectoryAt_iff, entry?_put hplace, if_pos rfl]
  · rw [namesIn_put_of_ne (by simp) hplace, ht.namesIn_eq_nil hnot]

end FileTree
end PolicyCheck
