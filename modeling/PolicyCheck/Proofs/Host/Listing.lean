import PolicyCheck.Host.Basic
import PolicyCheck.Proofs.Host.FileTree
import PolicyCheck.Proofs.Text.Utf8

/-!
# Directories in any order

The order in which a directory shows its entries is the one thing about a file system that does not follow
from what stands at each place. Where a path leads and what a file holds do not depend on it.
-/

namespace PolicyCheck

namespace FileTree

variable {t t' : FileTree} {directory : Place} {p : FilePath}

theorem enter_congr (h : ∀ place, t.entry? place = t'.entry? place) : t.enter = t'.enter := by
  funext directory name
  simp only [enter, h]

theorem find_congr (h : ∀ place, t.entry? place = t'.entry? place) : t.find directory p = t'.find directory p := by
  simp only [find, locate, enter_congr h, h]

end FileTree

namespace Host

variable {h h' : Host} {p : FilePath} {text : String}

theorem read_eq_ok_iff {contents : Text.Octets} :
    h.files.read h.directory p = .ok contents ↔ ∃ executable, h.entry? p = some (.file contents executable) := by
  rw [FileTree.read, entry?, bind_eq_ok_iff]
  cases h.files.find h.directory p with
  | error cause => simp [Except.toOption]
  | ok found =>
    obtain ⟨place, entry⟩ := found
    cases entry <;> simp [Except.toOption, throw, throwThe, MonadExceptOf.throw, pure, Except.pure]

/-- A text is read where there is a file with just the octets of the text. -/
theorem readText_eq_ok_iff : h.readText p = .ok text ↔
    ∃ executable, h.entry? p = some (.file (Text.Utf8.encode text.toList) executable) := by
  rw [readText, bind_eq_ok_iff, ← read_eq_ok_iff]
  constructor
  · rintro ⟨contents, hread, hdecode⟩
    split at hdecode
    · rename_i cs hcs
      obtain rfl := Except.ok.inj hdecode
      rwa [String.toList_ofList, ← Text.Utf8.decode?_eq_some_iff.1 hcs]
    · cases hdecode
  · intro hread
    refine ⟨_, hread, ?_⟩
    rw [Text.Utf8.decode?_encode]
    exact congrArg Except.ok String.ofList_toList

theorem exists_list_of_isDirectory (h : h'.isDirectory p = true) : ∃ names, h'.list p = .ok names := by
  rw [isDirectory, beq_iff_eq, entry?, Option.map_eq_some_iff] at h
  obtain ⟨⟨place, entry⟩, hfind, rfl⟩ := h
  exact ⟨_, FileTree.list_eq_ok_iff.2 ⟨place, toOption_eq_some_iff.1 hfind, rfl⟩⟩

/-- The hosts have the same entries everywhere, which their directories show in any order. -/
structure Reordered (h h' : Host) : Prop where
  directory : h.directory = h'.directory
  entries (place : Place) : h.files.entry? place = h'.files.entry? place
  names (place : Place) : (h.files.namesIn place).Perm (h'.files.namesIn place)

namespace Reordered

theorem of_perm (h : Host) {entries : List (Place × Entry)} (hperm : h.files.entries.Perm entries)
    (hnodup : (h.files.entries.map Prod.fst).Nodup) : h.Reordered { h with files := ⟨entries⟩ } where
  directory := rfl
  entries place := by
    rw [FileTree.entry?, FileTree.entry?, lookup_eq_of_perm hperm hnodup]
  names place := by
    rw [FileTree.namesIn, FileTree.namesIn]
    exact hperm.filterMap _

variable (horder : h.Reordered h')

include horder

theorem find_eq (p : FilePath) : h.files.find h.directory p = h'.files.find h'.directory p := by
  rw [horder.directory, FileTree.find_congr horder.entries]

theorem entry?_eq (p : FilePath) : h.entry? p = h'.entry? p := by
  rw [ entry?, entry?, horder.find_eq]

theorem isFile_eq : h.isFile = h'.isFile := by
  funext p
  rw [isFile, isFile, horder.entry?_eq]

theorem isDirectory_eq (p : FilePath) : h.isDirectory p = h'.isDirectory p := by
  rw [isDirectory, isDirectory, horder.entry?_eq]

theorem readText_eq (p : FilePath) : h.readText p = h'.readText p := by
  rw [readText, readText, FileTree.read, FileTree.read, horder.find_eq]

/-- Where the one host lists the names of a directory, the other lists the same in some order. -/
theorem list_perm {names : List String} (hlist : h.list p = .ok names) :
    ∃ names', h'.list p = .ok names' ∧ names.Perm names' := by
  obtain ⟨place, hfind, rfl⟩ := FileTree.list_eq_ok_iff.1 hlist
  exact ⟨_, FileTree.list_eq_ok_iff.2 ⟨place, horder.find_eq p ▸ hfind, rfl⟩, horder.names place⟩

end Reordered

end Host

end PolicyCheck
