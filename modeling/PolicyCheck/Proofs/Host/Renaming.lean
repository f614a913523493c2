import Mathlib.Data.List.Basic
import Mathlib.Logic.Equiv.Basic
import PolicyCheck.Proofs.Host.Deposit

/-!
# Trees under other names

A renaming changes names one to one and keeps all of a name that matters to where a path leads: its
length, whether it is one of the names that lead elsewhere, and whether slashes or nul characters are in
it. What is done in a tree by some path is done in the same way, and fails in the same way, in the tree
under the other names by the path through the other names. There is one equation for each operation.
-/

namespace PolicyCheck

open FilePath (Plain slash)

structure Renaming (σ : String → String) : Prop where
  injective : σ.Injective
  size (name : String) : (σ name).utf8ByteSize = name.utf8ByteSize
  current : σ "." = "."
  parent : σ ".." = ".."
  slash {name : String} (h : slash ∉ name.toList) : slash ∉ (σ name).toList
  nul (name : String) : '\x00' ∈ (σ name).toList ↔ '\x00' ∈ name.toList

variable {σ : String → String}

namespace Renaming

theorem eq_empty_iff (hσ : Renaming σ) {name : String} : σ name = "" ↔ name = "" := by
  rw [← String.utf8ByteSize_eq_zero_iff, hσ.size, String.utf8ByteSize_eq_zero_iff]

theorem eq_current_iff (hσ : Renaming σ) {name : String} : σ name = "." ↔ name = "." :=
  ⟨fun h => hσ.injective (h.trans hσ.current.symm), fun h => h ▸ hσ.current⟩

theorem eq_parent_iff (hσ : Renaming σ) {name : String} : σ name = ".." ↔ name = ".." :=
  ⟨fun h => hσ.injective (h.trans hσ.parent.symm), fun h => h ▸ hσ.parent⟩

theorem plain (hσ : Renaming σ) {name : String} (hname : Plain name) : Plain (σ name) where
  nonempty := mt hσ.eq_empty_iff.1 hname.nonempty
  notCurrent := mt hσ.eq_current_iff.1 hname.notCurrent
  notParent := mt hσ.eq_parent_iff.1 hname.notParent
  noSlash := hσ.slash hname.noSlash
  noNul := mt (hσ.nul name).1 hname.noNul

theorem map_inj (hσ : Renaming σ) {p q : Place} : p.map σ = q.map σ ↔ p = q :=
  (List.map_injective_iff.2 hσ.injective).eq_iff

theorem isPrefixOf_map (hσ : Renaming σ) (p q : Place) : (p.map σ).isPrefixOf (q.map σ) = p.isPrefixOf q := by
  rw [Bool.eq_iff_iff, List.isPrefixOf_iff_prefix, List.isPrefixOf_iff_prefix, List.prefix_map_iff]
  constructor
  · rintro ⟨p', hprefix, heq⟩
    rwa [hσ.map_inj.1 heq]
  · exact fun hprefix => ⟨p, hprefix, rfl⟩

theorem comp {τ : String → String} (hσ : Renaming σ) (hτ : Renaming τ) : Renaming (σ ∘ τ) where
  injective := hσ.injective.comp hτ.injective
  size name := (hσ.size (τ name)).trans (hτ.size name)
  current := (congrArg σ hτ.current).trans hσ.current
  parent := (congrArg σ hτ.parent).trans hσ.parent
  slash h := hσ.slash (hτ.slash h)
  nul name := (hσ.nul (τ name)).trans (hτ.nul name)

theorem swap {a b : String} (ha : Plain a) (hb : Plain b) (hsize : a.utf8ByteSize = b.utf8ByteSize) :
    Renaming (Equiv.swap a b) where
  injective := (Equiv.swap a b).injective
  size := Equiv.apply_swap_eq_self hsize
  current := Equiv.swap_apply_of_ne_of_ne ha.notCurrent.symm hb.notCurrent.symm
  parent := Equiv.swap_apply_of_ne_of_ne ha.notParent.symm hb.notParent.symm
  slash {name} h := by
    rw [Equiv.swap_apply_def]
    split
    · exact hb.noSlash
    · split
      · exact ha.noSlash
      · exact h
  nul name := by
    let v : String → Prop := fun name => '\x00' ∈ name.toList
    have hsame : v a = v b := propext (iff_of_false ha.noNul hb.noNul)
    exact iff_of_eq (Equiv.apply_swap_eq_self hsame name)

end Renaming

/-! ### Paths -/

namespace FilePath

def rename (σ : String → String) (p : FilePath) : FilePath :=
  ⟨String.ofList (Text.join [slash] (p.pieces.map fun piece => (σ piece).toList))⟩

variable {p q : FilePath}

theorem text_eq (p : FilePath) : p.text.toList = Text.join [slash] (p.pieces.map String.toList) := by
  rw [pieces, List.map_map]
  simp only [Function.comp_def, String.toList_ofList, List.map_id']
  exact (Text.join_pieces slash p.text.toList).symm

theorem eq_of_pieces (h : p.pieces = q.pieces) : p = q := by
  have htext : p.text.toList = q.text.toList := by rw [text_eq, h, ← text_eq]
  cases p
  cases q
  exact congrArg FilePath.mk (String.toList_inj.1 htext)

theorem slash_not_mem {piece : String} (h : piece ∈ p.pieces) : slash ∉ piece.toList := by
  obtain ⟨cs, hcs, rfl⟩ := List.mem_map.1 h
  rw [String.toList_ofList]
  exact (Text.mem_of_mem_pieces hcs).1

theorem pieces_ne_nil (p : FilePath) : p.pieces ≠ [] := mt List.map_eq_nil_iff.1 (Text.pieces_ne_nil _ _)

theorem pieces_join_texts {names : List String} (hnames : names ≠ [])
    (hslash : ∀ name ∈ names, slash ∉ name.toList) :
    (⟨String.ofList (Text.join [slash] (names.map String.toList))⟩ : FilePath).pieces = names := by
  rw [pieces, String.toList_ofList, Text.pieces_join (mt List.map_eq_nil_iff.1 hnames)
    (List.forall_mem_map.2 hslash), List.map_map]
  simp only [Function.comp_def, String.ofList_toList, List.map_id']

theorem pieces_rename (hσ : Renaming σ) (p : FilePath) : (p.rename σ).pieces = p.pieces.map σ := by
  have hjoin : p.rename σ = ⟨String.ofList (Text.join [slash] ((p.pieces.map σ).map String.toList))⟩ := by
    rw [rename, List.map_map]
    rfl
  rw [hjoin]
  refine pieces_join_texts (mt List.map_eq_nil_iff.1 p.pieces_ne_nil) ?_
  exact List.forall_mem_map.2 fun piece hpiece => hσ.slash (slash_not_mem hpiece)

theorem rename_eq_self (hσ : Renaming σ) (h : ∀ piece ∈ p.pieces, σ piece = piece) : p.rename σ = p := by
  refine eq_of_pieces ?_
  rw [pieces_rename hσ, List.map_congr_left h, List.map_id']

theorem nul_mem_rename (hσ : Renaming σ) (p : FilePath) :
    '\x00' ∈ (p.rename σ).text.toList ↔ '\x00' ∈ p.text.toList := by
  have hnul : '\x00' ∉ [slash] := by decide
  rw [text_eq, text_eq, pieces_rename hσ, Text.mem_join hnul, Text.mem_join hnul]
  simp only [List.mem_map, exists_exists_and_eq_and, hσ.nul]

theorem size_join (hσ : Renaming σ) (names : List String) :
    (String.ofList (Text.join [slash] (names.map fun name => (σ name).toList))).utf8ByteSize =
      (String.ofList (Text.join [slash] (names.map String.toList))).utf8ByteSize := by
  induction names with
  | nil => rfl
  | cons name names ih =>
    cases names with
    | nil => simpa only [List.map_cons, List.map_nil, Text.join, String.ofList_toList] using hσ.size name
    | cons next names =>
      simp only [List.map_cons, Text.join, String.ofList_append, String.utf8ByteSize_append,
        String.ofList_toList, hσ.size] at ih ⊢
      rw [ih]

theorem size_rename (hσ : Renaming σ) (p : FilePath) :
    (p.rename σ).text.utf8ByteSize = p.text.utf8ByteSize := by
  rw [rename, size_join hσ, ← text_eq, String.ofList_toList]

theorem isEmpty_rename (hσ : Renaming σ) (p : FilePath) : (p.rename σ).text.isEmpty = p.text.isEmpty := by
  rw [Bool.eq_iff_iff, String.isEmpty_iff_utf8ByteSize_eq_zero, String.isEmpty_iff_utf8ByteSize_eq_zero,
    size_rename hσ]

theorem isAbsolute_iff : p.isAbsolute = true ↔ ∃ piece names, p.pieces = "" :: piece :: names := by
  rw [isAbsolute, decide_eq_true_eq, pieces]
  cases p.text.toList with
  | nil => simp
  | cons c cs =>
    by_cases hc : c = slash
    · subst hc
      simp [Text.pieces, Text.cut]
    · simp [Text.pieces, Text.cut, hc]

theorem isAbsolute_rename (hσ : Renaming σ) (p : FilePath) : (p.rename σ).isAbsolute = p.isAbsolute := by
  rw [Bool.eq_iff_iff, isAbsolute_iff, isAbsolute_iff, pieces_rename hσ]
  constructor
  · rintro ⟨_, _, h⟩
    obtain ⟨empty, rest, hpieces, hempty, hrest⟩ := List.map_eq_cons_iff.1 h
    obtain ⟨piece, names, rfl, -, -⟩ := List.map_eq_cons_iff.1 hrest
    exact ⟨piece, names, by rw [hpieces, hσ.eq_empty_iff.1 hempty]⟩
  · rintro ⟨piece, names, h⟩
    exact ⟨σ piece, names.map σ, by rw [h, List.map_cons, List.map_cons, hσ.eq_empty_iff.2 rfl]⟩

/-- The names of a path below another one; what a slash at the end of the other has after it counts not. -/
theorem pieces_join (hq : q.isAbsolute = false) :
    (p.join q).pieces = (if p.pieces.getLast? = some "" then p.pieces.dropLast else p.pieces) ++ q.pieces := by
  rw [join, if_neg (by rw [hq]; exact Bool.false_ne_true), pieces, pieces, pieces]
  rcases List.eq_nil_or_concat' p.text.toList with hnil | ⟨front, c, hconcat⟩
  · have hempty : p.text.isEmpty = true := String.isEmpty_iff.2 (String.toList_eq_nil_iff.1 hnil)
    rw [if_pos (.inl hempty), hnil, String.toList_append, hnil]
    rfl
  · have hempty : ¬ p.text.isEmpty = true := by
      rw [String.isEmpty_iff, ← String.toList_eq_nil_iff, hconcat]
      simp
    by_cases hc : c = slash
    · subst hc
      have hlast : p.text.toList.getLast? = some slash := by rw [hconcat, List.getLast?_concat]
      have hpieces : Text.pieces slash (front ++ [slash]) = Text.pieces slash front ++ [[]] :=
        Text.pieces_append slash front []
      rw [if_pos (.inr hlast), String.toList_append, hconcat, hpieces, List.append_assoc,
        List.singleton_append, Text.pieces_append]
      simp
    · have hlast : ¬ p.text.toList.getLast? = some slash := by
        rw [hconcat, List.getLast?_concat]
        simpa using hc
      obtain ⟨back, hback⟩ := Text.getLast?_pieces_concat hc front
      have hslash : ¬ ((Text.pieces slash p.text.toList).map String.ofList).getLast? = some "" := by
        rw [List.getLast?_map, hconcat, hback, Option.map_some, Option.some.injEq, ← String.toList_inj,
          String.toList_ofList]
        simp
      have htext : (p.text ++ "/" ++ q.text).toList = p.text.toList ++ slash :: q.text.toList := by
        rw [String.toList_append, String.toList_append, List.append_assoc]
        rfl
      rw [if_neg (not_or.2 ⟨hempty, hlast⟩), if_neg hslash, htext, Text.pieces_append, List.map_append]

theorem rename_join (hσ : Renaming σ) (p q : FilePath) : (p.join q).rename σ = (p.rename σ).join (q.rename σ) := by
  refine eq_of_pieces ?_
  rw [pieces_rename hσ]
  cases hq : q.isAbsolute with
  | true => rw [join, if_pos hq, join, if_pos ((isAbsolute_rename hσ q).trans hq), pieces_rename hσ]
  | false =>
    have hlast : (p.pieces.map σ).getLast? = some "" ↔ p.pieces.getLast? = some "" := by
      simp only [List.getLast?_map, Option.map_eq_some_iff, hσ.eq_empty_iff, exists_eq_right]
    rw [pieces_join hq, pieces_join ((isAbsolute_rename hσ q).trans hq), pieces_rename hσ, pieces_rename hσ,
      List.map_append]
    by_cases hslash : p.pieces.getLast? = some ""
    · rw [if_pos hslash, if_pos (hlast.2 hslash), List.map_dropLast]
    · rw [if_neg hslash, if_neg (mt hlast.1 hslash)]

theorem rename_name (hσ : Renaming σ) {name : String} (hname : Plain name) :
    (⟨name⟩ : FilePath).rename σ = ⟨σ name⟩ := by
  refine eq_of_pieces ?_
  rw [pieces_rename hσ, pieces, pieces, hname.pieces_eq, (hσ.plain hname).pieces_eq, List.map_singleton]

theorem rename_ofNames (hσ : Renaming σ) {names : List String} (hnames : ∀ name ∈ names, Plain name) :
    (ofNames names).rename σ = ofNames (names.map σ) := by
  induction names using List.reverseRecOn with
  | nil =>
    have hroot : (ofNames []).pieces = ["", ""] := by decide +kernel
    refine rename_eq_self hσ fun piece hpiece => ?_
    rw [hroot] at hpiece
    obtain rfl : piece = "" := by simpa using hpiece
    exact hσ.eq_empty_iff.2 rfl
  | append_singleton names name ih =>
    obtain ⟨hnames, hname⟩ := List.forall_mem_append.1 hnames
    have hname := hname name (List.mem_singleton_self name)
    have hnames' : ∀ name ∈ names.map σ, Plain name := List.forall_mem_map.2 fun name h => hσ.plain (hnames name h)
    rw [ofNames_snoc hnames hname, rename_join hσ, ih hnames, rename_name hσ hname, List.map_append,
      List.map_singleton, ofNames_snoc hnames' (hσ.plain hname)]

end FilePath

/-! ### Trees -/

namespace FileTree

variable {t : FileTree} {directory place : Place} {p : FilePath}

def rename (σ : String → String) (t : FileTree) : FileTree := ⟨t.entries.map fun e => (e.1.map σ, e.2)⟩

theorem lookup_rename (hσ : Renaming σ) (entries : List (Place × Entry)) (q : Place) :
    (entries.map fun e => (e.1.map σ, e.2)).lookup (q.map σ) = entries.lookup q := by
  induction entries with
  | nil => rfl
  | cons e es ih =>
    have hsame : (q.map σ == e.1.map σ) = (q == e.1) := by
      rw [Bool.eq_iff_iff, beq_iff_eq, beq_iff_eq, hσ.map_inj]
    rw [List.map_cons, List.lookup_cons, List.lookup_cons, hsame, ih]

theorem entry?_rename (hσ : Renaming σ) (t : FileTree) (q : Place) :
    FileTree.entry? (t.rename σ) (q.map σ) = t.entry? q := by
  rw [ entry?, entry?, rename, lookup_rename hσ]
  simp only [List.map_eq_nil_iff]

theorem isDirectoryAt_rename (hσ : Renaming σ) (t : FileTree) (q : Place) :
    (t.rename σ).isDirectoryAt (q.map σ) = t.isDirectoryAt q := by
  rw [isDirectoryAt, isDirectoryAt, entry?_rename hσ]

theorem put_rename (hσ : Renaming σ) (t : FileTree) (place : Place) (entry : Entry) :
    (t.rename σ).put (place.map σ) entry = (t.put place entry).rename σ := by
  rw [put, put, rename, lookup_rename hσ, rename]
  split
  · rw [FileTree.mk.injEq, List.map_map, List.map_map]
    refine List.map_congr_left fun e _ => ?_
    simp only [Function.comp_apply, hσ.map_inj]
    split <;> rfl
  · rw [List.map_append]
    rfl

theorem prune_rename (hσ : Renaming σ) (t : FileTree) (place : Place) :
    (t.rename σ).prune (place.map σ) = (t.prune place).rename σ := by
  rw [prune, prune, rename, rename, List.filter_map]
  simp only [Function.comp_def, hσ.isPrefixOf_map]

theorem nameBelow?_rename (hσ : Renaming σ) (directory place : Place) :
    nameBelow? (directory.map σ) (place.map σ) = (nameBelow? directory place).map σ := by
  rw [nameBelow?, nameBelow?, List.getLast?_map]
  cases place.getLast? with
  | none => rfl
  | some name =>
    have hsame : place.map σ = directory.map σ ++ [σ name] ↔ place = directory ++ [name] := by
      rw [← hσ.map_inj (q := directory ++ [name]), List.map_append, List.map_singleton]
    simp only [Option.map_some, hsame]
    split <;> rfl

theorem namesIn_rename (hσ : Renaming σ) (t : FileTree) (directory : Place) :
    (t.rename σ).namesIn (directory.map σ) = (t.namesIn directory).map σ := by
  rw [namesIn, namesIn, rename, List.filterMap_map, List.map_filterMap]
  simp only [Function.comp_def, nameBelow?_rename hσ]

theorem rename_eq_self (h : ∀ e ∈ t.entries, ∀ name ∈ e.1, σ name = name) : t.rename σ = t := by
  have hentries : (t.entries.map fun e => (e.1.map σ, e.2)) = t.entries := by
    refine (List.map_congr_left fun e he => ?_).trans (List.map_id' _)
    rw [List.map_congr_left (h e he), List.map_id']
  rw [rename, hentries]

/-! ### Where a path leads -/

theorem fitting_rename (hσ : Renaming σ) (name : String) : fitting (σ name) = (fitting name).map σ := by
  rw [fitting, fitting, hσ.size]
  split <;> rfl

theorem enter_rename (hσ : Renaming σ) (t : FileTree) (directory : Place) (name : String) :
    (t.rename σ).enter (directory.map σ) (σ name) = (t.enter directory name).map (List.map σ) := by
  simp only [enter, hσ.eq_current_iff, hσ.eq_parent_iff, fitting_rename hσ]
  split
  · rfl
  · split
    · rw [← List.map_dropLast]
      rfl
    · cases fitting name with
      | error cause => rfl
      | ok fits =>
        have hplace : directory.map σ ++ [σ fits] = (directory ++ [fits]).map σ := by
          rw [List.map_append, List.map_singleton]
        simp only [Except.map, bind, Except.bind, hplace, entry?_rename hσ]
        rcases t.entry? (directory ++ [fits]) with _ | _ | _ <;> rfl

theorem foldlM_enter_rename (hσ : Renaming σ) (t : FileTree) (names : List String) (directory : Place) :
    (names.map σ).foldlM (t.rename σ).enter (directory.map σ) =
      (names.foldlM t.enter directory).map (List.map σ) := by
  induction names generalizing directory with
  | nil => rfl
  | cons name names ih =>
    rw [List.map_cons, List.foldlM_cons, List.foldlM_cons, enter_rename hσ]
    cases t.enter directory name with
    | error cause => rfl
    | ok next => exact ih next

def Target.rename (σ : String → String) (target : Target) : Target := ⟨target.place.map σ, target.slashed⟩

theorem locate_rename (hσ : Renaming σ) (t : FileTree) (directory : Place) (p : FilePath) :
    (t.rename σ).locate (directory.map σ) (p.rename σ) = (t.locate directory p).map (Target.rename σ) := by
  have hnames : ((p.rename σ).pieces.filter (· ≠ "")) = (p.pieces.filter (· ≠ "")).map σ := by
    rw [FilePath.pieces_rename hσ, List.filter_map]
    simp only [Function.comp_def, ne_eq, hσ.eq_empty_iff]
  have hslashed : (p.rename σ).pieces.getLast? = some "" ↔ p.pieces.getLast? = some "" := by
    rw [FilePath.pieces_rename hσ]
    simp only [List.getLast?_map, Option.map_eq_some_iff, hσ.eq_empty_iff, exists_eq_right]
  have hstart : (if p.isAbsolute then [] else directory.map σ) = (if p.isAbsolute then [] else directory).map σ := by
    split <;> rfl
  simp only [locate, FilePath.nul_mem_rename hσ, FilePath.isEmpty_rename hσ, FilePath.size_rename hσ, hnames,
    FilePath.isAbsolute_rename hσ, hslashed, hstart, ← List.map_dropLast, foldlM_enter_rename hσ,
    List.getLast?_map]
  split
  · rfl
  · split
    · rfl
    · split
      · rfl
      · cases (p.pieces.filter (· ≠ "")).dropLast.foldlM t.enter (if p.isAbsolute then [] else directory) with
        | error cause => rfl
        | ok above =>
          cases (p.pieces.filter (· ≠ "")).getLast? with
          | none => rfl
          | some name =>
            simp only [Except.map, bind, Except.bind, Option.map_some, hσ.eq_current_iff, hσ.eq_parent_iff,
              enter_rename hσ, fitting_rename hσ]
            split
            · cases t.enter above name <;> rfl
            · cases fitting name with
              | error cause => rfl
              | ok fits =>
                simp only [pure, Except.pure, Target.rename, List.map_append, List.map_singleton]

theorem find_rename (hσ : Renaming σ) (t : FileTree) (directory : Place) (p : FilePath) :
    (t.rename σ).find (directory.map σ) (p.rename σ) =
      (t.find directory p).map fun found => (found.1.map σ, found.2) := by
  rw [find, find, locate_rename hσ]
  cases t.locate directory p with
  | error cause => rfl
  | ok target =>
    simp only [Except.map, bind, Except.bind, Target.rename, entry?_rename hσ]
    rcases t.entry? target.place with _ | _ | _
    · rfl
    · rfl
    · dsimp only
      split <;> rfl

/-! ### Operations -/

theorem read_rename (hσ : Renaming σ) (t : FileTree) (directory : Place) (p : FilePath) :
    (t.rename σ).read (directory.map σ) (p.rename σ) = t.read directory p := by
  rw [read, read, find_rename hσ]
  rcases t.find directory p with _ | ⟨_, _ | _⟩ <;> rfl

theorem list_rename (hσ : Renaming σ) (t : FileTree) (directory : Place) (p : FilePath) :
    (t.rename σ).list (directory.map σ) (p.rename σ) = (t.list directory p).map (List.map σ) := by
  rw [list, list, find_rename hσ]
  rcases t.find directory p with _ | ⟨place, _ | _⟩
  · rfl
  · exact congrArg Except.ok (namesIn_rename hσ t place)
  · rfl

theorem write_rename (hσ : Renaming σ) (t : FileTree) (directory : Place) (p : FilePath)
    (contents : Text.Octets) :
    (t.rename σ).write (directory.map σ) (p.rename σ) contents =
      (t.write directory p contents).map (rename σ) := by
  rw [write, write, locate_rename hσ]
  cases t.locate directory p with
  | error cause => rfl
  | ok target =>
    simp only [Except.map, bind, Except.bind, Target.rename, entry?_rename hσ, put_rename hσ]
    cases target.slashed with
    | true => rfl
    | false => rcases t.entry? target.place with _ | _ | _ <;> rfl

theorem makeDirectory_rename (hσ : Renaming σ) (t : FileTree) (directory : Place) (p : FilePath) :
    (t.rename σ).makeDirectory (directory.map σ) (p.rename σ) =
      (t.makeDirectory directory p).map (rename σ) := by
  rw [makeDirectory, makeDirectory, locate_rename hσ]
  cases t.locate directory p with
  | error cause => rfl
  | ok target =>
    simp only [Except.map, bind, Except.bind, Target.rename, entry?_rename hσ, put_rename hσ]
    split <;> rfl

theorem deposit_rename (hσ : Renaming σ) (directory : Place) (dir : FilePath)
    {files : List (String × Text.Octets)} (hplain : ∀ file ∈ files, Plain file.1)
    (hfixed : ∀ file ∈ files, σ file.1 = file.1) (t : FileTree) :
    ((t.rename σ).deposit (directory.map σ) (dir.rename σ) files).1 = (t.deposit directory dir files).1.rename σ := by
  induction files generalizing t with
  | nil => rfl
  | cons file files ih =>
    obtain ⟨hfile, hplain⟩ := List.forall_mem_cons.1 hplain
    obtain ⟨hname, hfixed⟩ := List.forall_mem_cons.1 hfixed
    have hpath : (dir.rename σ).join ⟨file.1⟩ = (dir.join ⟨file.1⟩).rename σ := by
      rw [FilePath.rename_join hσ, FilePath.rename_name hσ hfile, hname]
    have hwrite := write_rename hσ t directory (dir.join ⟨file.1⟩) file.2
    rw [← hpath] at hwrite
    cases hwritten : t.write directory (dir.join ⟨file.1⟩) file.2 with
    | error cause =>
      rw [hwritten] at hwrite
      rw [deposit_of_error hwrite, deposit_of_error hwritten]
      exact ih hplain hfixed t
    | ok t' =>
      rw [hwritten] at hwrite
      rw [deposit_of_ok hwrite, deposit_of_ok hwritten]
      exact ih hplain hfixed t'

end FileTree

end PolicyCheck
