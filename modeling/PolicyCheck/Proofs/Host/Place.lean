import PolicyCheck.Proofs.Host.FileTree

/-!
# Where a path leads by its names alone

There are no links, so the names of a path settle where it leads, if it leads anywhere: what stands on the
way decides only whether it does. The path through the names of a place leads to that place, and the path
of an entry leads to the name of the entry in its directory. Only names of entries lie on the way to a
place, and so a tree keeps to such names.
-/

namespace PolicyCheck

namespace FilePath

def go (place : Place) (name : String) : Place :=
  if name = "." then place else if name = ".." then place.dropLast else place ++ [name]

/-- The place to which the names of a path lead from a directory. -/
def placeFrom (directory : Place) (p : FilePath) : Place :=
  p.names.foldl go (if p.isAbsolute then [] else directory)

/-- The place to which the names of an absolute path lead. -/
def place (p : FilePath) : Place := p.placeFrom []

variable {p : FilePath} {directory place : Place} {name : String} {names : List String}

theorem go_of_plain (hname : Plain name) : go place name = place ++ [name] := by
  rw [go, if_neg hname.notCurrent, if_neg hname.notParent]

theorem foldl_go_of_plain (hnames : ∀ name ∈ names, Plain name) : names.foldl go place = place ++ names := by
  induction names generalizing place with
  | nil => exact (List.append_nil place).symm
  | cons name names ih =>
    obtain ⟨hname, hnames⟩ := List.forall_mem_cons.1 hnames
    rw [List.foldl_cons, go_of_plain hname, ih hnames, List.append_assoc, List.singleton_append]

theorem placeFrom_of_isAbsolute (hp : p.isAbsolute = true) (directory : Place) :
    p.placeFrom directory = p.place := by
  simp only [place, placeFrom, if_pos hp]

theorem plain_of_mem_names (hnul : '\x00' ∉ p.text.toList) (hname : name ∈ p.names)
    (hstep : ¬ (name = "." ∨ name = "..")) : Plain name := by
  obtain ⟨hpiece, hnonempty⟩ := List.mem_filter.1 hname
  obtain ⟨cs, hcs, rfl⟩ := List.mem_map.1 hpiece
  obtain ⟨hslash, hall⟩ := Text.mem_of_mem_pieces hcs
  obtain ⟨hcurrent, hparent⟩ := not_or.1 hstep
  refine ⟨of_decide_eq_true hnonempty, hcurrent, hparent, ?_, ?_⟩
  · rwa [String.toList_ofList]
  · rw [String.toList_ofList]
    exact fun hin => hnul (hall _ hin)

theorem plain_go (hplace : ∀ name ∈ place, Plain name) (hname : ¬ (name = "." ∨ name = "..") → Plain name) :
    ∀ other ∈ go place name, Plain other := by
  rw [go]
  split
  · exact hplace
  · rename_i hcurrent
    split
    · exact fun other hother => hplace other (List.dropLast_subset _ hother)
    · rename_i hparent
      exact List.forall_mem_append.2 ⟨hplace, List.forall_mem_singleton.2 (hname (not_or.2 ⟨hcurrent, hparent⟩))⟩

theorem plain_placeFrom (hnul : '\x00' ∉ p.text.toList) (hdirectory : ∀ name ∈ directory, Plain name) :
    ∀ name ∈ p.placeFrom directory, Plain name := by
  have hfold (names : List String) (place : Place) (hplace : ∀ name ∈ place, Plain name)
      (hnames : ∀ name ∈ names, ¬ (name = "." ∨ name = "..") → Plain name) :
      ∀ name ∈ names.foldl go place, Plain name := by
    induction names generalizing place with
    | nil => exact hplace
    | cons name names ih =>
      obtain ⟨hname, hnames⟩ := List.forall_mem_cons.1 hnames
      exact ih _ (plain_go hplace hname) hnames
  refine hfold p.names _ ?_ fun name hname => plain_of_mem_names hnul hname
  split
  · exact List.forall_mem_nil _
  · exact hdirectory

theorem placeFrom_join (hp : p.text ≠ "") (hname : Plain name) :
    (p.join ⟨name⟩).placeFrom directory = p.placeFrom directory ++ [name] := by
  rw [placeFrom, placeFrom, names_join hp hname, isAbsolute_join hp hname, List.foldl_concat,
    go_of_plain hname]

theorem text_ne_empty (hp : p.isAbsolute = true) : p.text ≠ "" := by
  intro hempty
  rw [isAbsolute, hempty] at hp
  cases hp

theorem ofNames_snoc (hnames : ∀ name ∈ names, Plain name) {name : String} (hname : Plain name) :
    ofNames (names ++ [name]) = (ofNames names).join ⟨name⟩ := by
  -- The first name follows the slash of the root itself; every other one follows a name.
  rcases List.eq_nil_or_concat' names with rfl | ⟨front, last, rfl⟩
  · rw [join, if_neg (by rw [hname.not_isAbsolute]; exact Bool.false_ne_true), if_pos (.inr rfl)]
    rfl
  · exact ofNames_concat (hnames last (List.mem_append_right _ (List.mem_singleton_self last))) hname

theorem names_ofNames (hnames : ∀ name ∈ names, Plain name) : (ofNames names).names = names := by
  induction names using List.reverseRecOn with
  | nil => rfl
  | append_singleton names name ih =>
    obtain ⟨hnames, hname⟩ := List.forall_mem_append.1 hnames
    have hname := hname name (List.mem_singleton_self name)
    rw [ofNames_snoc hnames hname, names_join (text_ne_empty (ofNames_isAbsolute _)) hname, ih hnames]

theorem place_ofNames (hnames : ∀ name ∈ names, Plain name) : (ofNames names).place = names := by
  rw [place, placeFrom, names_ofNames hnames, foldl_go_of_plain hnames]
  split <;> rfl

end FilePath

namespace FileTree

open FilePath (Plain)

variable {t : FileTree} {directory place : Place} {p : FilePath} {target : Target}

theorem eq_go_of_enter {name : String} (h : t.enter directory name = .ok place) :
    place = FilePath.go directory name := by
  rcases enter_eq_ok_iff.1 h with ⟨rfl, rfl⟩ | ⟨rfl, rfl⟩ | ⟨hname, -, rfl, -⟩
  · rfl
  · rfl
  · obtain ⟨hcurrent, hparent⟩ := not_or.1 hname
    rw [FilePath.go, if_neg hcurrent, if_neg hparent]

theorem eq_foldl_of_foldlM_enter {names : List String} (h : names.foldlM t.enter directory = .ok place) :
    place = names.foldl FilePath.go directory := by
  induction names generalizing directory with
  | nil => exact (Except.ok.inj h).symm
  | cons name names ih =>
    rw [List.foldlM_cons] at h
    obtain ⟨next, hnext, h⟩ := bind_eq_ok_iff.1 h
    rw [List.foldl_cons, ← eq_go_of_enter hnext]
    exact ih h

theorem place_of_locate (h : t.locate directory p = .ok target) : target.place = p.placeFrom directory := by
  obtain ⟨-, above, hwalk, harrive⟩ := locate_eq_ok_iff.1 h
  have habove := eq_foldl_of_foldlM_enter hwalk
  rw [arrive] at harrive
  cases hlast : p.names.getLast? with
  | none =>
    rw [hlast] at harrive
    obtain rfl := Except.ok.inj harrive
    rw [List.getLast?_eq_none_iff.1 hlast] at habove
    rw [FilePath.placeFrom, List.getLast?_eq_none_iff.1 hlast]
    exact habove
  | some name =>
    obtain ⟨front, hnames⟩ := List.getLast?_eq_some_iff.1 hlast
    rw [hlast] at harrive
    rw [hnames, List.dropLast_concat] at habove
    rw [FilePath.placeFrom, hnames, List.foldl_concat]
    change target.place = FilePath.go (front.foldl FilePath.go (base directory p)) name
    rw [← habove]
    by_cases hname : name = "." ∨ name = ".."
    · simp only [if_pos hname] at harrive
      obtain ⟨place, henter, rfl⟩ := map_eq_ok_iff.1 harrive
      exact eq_go_of_enter henter
    · simp only [if_neg hname] at harrive
      obtain ⟨_, hfits, rfl⟩ := map_eq_ok_iff.1 harrive
      obtain ⟨-, rfl⟩ := fitting_eq_ok_iff.1 hfits
      obtain ⟨hcurrent, hparent⟩ := not_or.1 hname
      rw [FilePath.go, if_neg hcurrent, if_neg hparent]

theorem isDirectoryAt_of_foldlM_enter {names : List String} (hnames : ∀ name ∈ names, Plain name)
    (hdirectory : t.isDirectoryAt directory = true) (h : names.foldlM t.enter directory = .ok place) :
    t.isDirectoryAt place = true := by
  induction names generalizing directory with
  | nil =>
    obtain rfl := Except.ok.inj h
    exact hdirectory
  | cons name names ih =>
    obtain ⟨hname, hnames⟩ := List.forall_mem_cons.1 hnames
    rw [List.foldlM_cons] at h
    obtain ⟨next, hnext, h⟩ := bind_eq_ok_iff.1 h
    rw [enter_name_eq_ok_iff (not_or.2 ⟨hname.notCurrent, hname.notParent⟩)] at hnext
    exact ih hnames hnext.2.2 h

/-- A directory that is made under names of entries is put where nothing stood, in a directory. -/
theorem makeDirectory_ofNames {t' : FileTree} {front : List String} {last : String}
    (hnames : ∀ name ∈ front ++ [last], Plain name)
    (h : t.makeDirectory directory (.ofNames (front ++ [last])) = .ok t') :
    t.isDirectoryAt front = true ∧ t.entry? (front ++ [last]) = none ∧
      t' = t.put (front ++ [last]) .directory := by
  obtain ⟨target, hlocate, hvacant, rfl⟩ := makeDirectory_eq_ok_iff.1 h
  have habsolute := FilePath.ofNames_isAbsolute (front ++ [last])
  have hplace : target.place = front ++ [last] := by
    rw [place_of_locate hlocate, FilePath.placeFrom_of_isAbsolute habsolute, FilePath.place_ofNames hnames]
  obtain ⟨-, above, hwalk, -⟩ := locate_eq_ok_iff.1 hlocate
  obtain ⟨hfront, -⟩ := List.forall_mem_append.1 hnames
  change (FilePath.ofNames (front ++ [last])).names.dropLast.foldlM t.enter _ = _ at hwalk
  rw [FilePath.names_ofNames hnames, List.dropLast_concat, base_of_isAbsolute habsolute] at hwalk
  have habove := eq_foldl_of_foldlM_enter hwalk
  rw [FilePath.foldl_go_of_plain hfront, List.nil_append] at habove
  exact ⟨habove ▸ isDirectoryAt_of_foldlM_enter hfront rfl hwalk, hplace ▸ hvacant, by rw [hplace]⟩

/-- Nothing lies below a place in the area where nothing stands. -/
def ClosedIn (t : FileTree) (area : Place) : Prop :=
  ∀ p q, area <+: p → p <+: q → t.entry? p = none → t.entry? q = none

theorem Closed.entry?_below (ht : t.Closed) {q : Place} (hvacant : t.entry? place = none)
    (hbelow : place <+: q) : t.entry? q = none := by
  obtain ⟨names, rfl⟩ := hbelow
  by_contra hthere
  obtain ⟨entry, hentry⟩ := Option.ne_none_iff_exists'.1 hthere
  rcases List.eq_nil_or_concat' names with rfl | ⟨names, name, rfl⟩
  · rw [List.append_nil, hvacant] at hentry
    cases hentry
  · have habove := ht.above hentry
    rw [← List.append_assoc, List.dropLast_concat] at habove
    have hplace := isDirectoryAt_iff.1 (ht.isDirectoryAt_above habove (List.prefix_append place names))
    rw [hvacant] at hplace
    cases hplace

theorem Closed.closedIn (ht : t.Closed) (area : Place) : t.ClosedIn area :=
  fun _ _ _ hbelow hvacant => ht.entry?_below hvacant hbelow

/-! ### Trees of entries under names -/

/-- Every entry lies in a directory, under names of entries. -/
structure Sound (t : FileTree) : Prop where
  closed : t.Closed
  plain : ∀ e ∈ t.entries, ∀ name ∈ e.1, Plain name

instance (t : FileTree) : Decidable t.Sound :=
  decidable_of_iff (t.Closed ∧ ∀ e ∈ t.entries, ∀ name ∈ e.1, Plain name)
    ⟨fun ⟨hclosed, hplain⟩ => ⟨hclosed, hplain⟩, fun h => ⟨h.closed, h.plain⟩⟩

namespace Sound

variable {entry : Entry} {contents : Text.Octets}

theorem plain_of_mem_namesIn (ht : t.Sound) {name : String} (hname : name ∈ t.namesIn directory) :
    Plain name := by
  obtain ⟨entry, hmem⟩ := mem_namesIn.1 hname
  exact ht.plain _ hmem name (List.mem_append_right _ (List.mem_singleton_self name))

theorem put (ht : t.Sound) (hclosed : (t.put place entry).Closed) (hplace : ∀ name ∈ place, Plain name) :
    (t.put place entry).Sound := by
  refine ⟨hclosed, fun e he => ?_⟩
  rw [FileTree.put] at he
  split at he
  · obtain ⟨old, hold, rfl⟩ := List.mem_map.1 he
    split
    · exact hplace
    · exact ht.plain old hold
  · rcases List.mem_append.1 he with hold | hnew
    · exact ht.plain e hold
    · rw [List.mem_singleton.1 hnew]
      exact hplace

theorem prune (ht : t.Sound) (place : Place) : (t.prune place).Sound :=
  ⟨ht.closed.prune place, fun e he => ht.plain e (List.mem_filter.1 he).1⟩

theorem plain_of_locate (hp : p.isAbsolute = true) (h : t.locate directory p = .ok target) :
    ∀ name ∈ target.place, Plain name := by
  obtain ⟨⟨hnul, -⟩, -⟩ := locate_eq_ok_iff.1 h
  rw [place_of_locate h, FilePath.placeFrom_of_isAbsolute hp]
  exact FilePath.plain_placeFrom hnul (List.forall_mem_nil _)

variable {t' : FileTree}

theorem makeDirectory (ht : t.Sound) (hp : p.isAbsolute = true) (h : t.makeDirectory directory p = .ok t') :
    t'.Sound := by
  have hclosed := (ht.closed.makeDirectory hp h).1
  obtain ⟨target, hlocate, -, rfl⟩ := makeDirectory_eq_ok_iff.1 h
  exact ht.put hclosed (plain_of_locate hp hlocate)

theorem write (ht : t.Sound) (hp : p.isAbsolute = true) (h : t.write directory p contents = .ok t') :
    t'.Sound := by
  have hclosed := ht.closed.write hp h
  obtain ⟨place, executable, hlocate, -, rfl⟩ := write_eq_ok_iff.1 h
  exact ht.put hclosed (plain_of_locate hp hlocate)

end Sound

end FileTree

end PolicyCheck
