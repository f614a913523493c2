import PolicyCheck.Host.FilePath
import PolicyCheck.Proofs.Text.Pieces

/-!
# The names of a path

The names of an entry's path are those of its directory and its own, whether or not the path of the
directory ends in a slash. The name of an entry is `Plain`: it holds no slash and is not one of the
names that lead elsewhere.
-/

namespace PolicyCheck

namespace FilePath

/-- A name that an entry of a directory may have, its length aside. -/
structure Plain (name : String) : Prop where
  nonempty : name ≠ ""
  notCurrent : name ≠ "."
  notParent : name ≠ ".."
  noSlash : slash ∉ name.toList
  noNul : '\x00' ∉ name.toList

instance (name : String) : Decidable (Plain name) :=
  decidable_of_iff (name ≠ "" ∧ name ≠ "." ∧ name ≠ ".." ∧ slash ∉ name.toList ∧ '\x00' ∉ name.toList)
    ⟨fun ⟨hne, hcurrent, hparent, hslash, hnul⟩ => ⟨hne, hcurrent, hparent, hslash, hnul⟩,
      fun h => ⟨h.nonempty, h.notCurrent, h.notParent, h.noSlash, h.noNul⟩⟩

def names (p : FilePath) : List String := p.pieces.filter (· ≠ "")

theorem Plain.not_isAbsolute {name : String} (hname : Plain name) :
    (⟨name⟩ : FilePath).isAbsolute = false := by
  refine decide_eq_false fun hhead => hname.noSlash ?_
  exact List.mem_of_head? hhead

theorem isAbsolute_append {text : String} (more : String) (h : (⟨text⟩ : FilePath).isAbsolute = true) :
    (⟨text ++ more⟩ : FilePath).isAbsolute = true := by
  have hhead : text.toList.head? = some slash := of_decide_eq_true h
  refine decide_eq_true ?_
  rw [String.toList_append, List.head?_append, hhead, Option.some_or]

theorem isAbsolute_join_left {p : FilePath} (q : FilePath) (hp : p.isAbsolute = true) :
    (p.join q).isAbsolute = true := by
  rw [join]
  split
  · assumption
  · split
    · exact isAbsolute_append _ hp
    · exact isAbsolute_append _ (isAbsolute_append _ hp)

/-- The path of an entry ends in its name; what is in front of the name ends in a slash. -/
theorem join_text {p : FilePath} {name : String} (hp : p.text ≠ "") (hname : Plain name) :
    ∃ front, (p.join ⟨name⟩).text.toList = front ++ slash :: name.toList ∧
      (p.text.toList = front ∨ p.text.toList = front ++ [slash]) := by
  have hempty : p.text.isEmpty = false := by
    rw [← Bool.not_eq_true, String.isEmpty_iff]
    exact hp
  rw [join, if_neg (by rw [hname.not_isAbsolute]; exact Bool.false_ne_true)]
  by_cases hlast : p.text.toList.getLast? = some slash
  · obtain ⟨front, hfront⟩ := List.getLast?_eq_some_iff.1 hlast
    rw [if_pos (.inr hlast)]
    refine ⟨front, ?_, .inr hfront⟩
    rw [String.toList_append, hfront, List.append_assoc]
    rfl
  · rw [if_neg (by simp [hempty, hlast])]
    refine ⟨p.text.toList, ?_, .inl rfl⟩
    rw [String.toList_append, String.toList_append, List.append_assoc]
    rfl

theorem Plain.pieces_eq {name : String} (hname : Plain name) :
    (Text.pieces slash name.toList).map String.ofList = [name] := by
  rw [Text.pieces_of_not_mem hname.noSlash, List.map_cons, String.ofList_toList, List.map_nil]

theorem names_join {p : FilePath} {name : String} (hp : p.text ≠ "") (hname : Plain name) :
    (p.join ⟨name⟩).names = p.names ++ [name] := by
  obtain ⟨front, hjoin, hfront⟩ := join_text hp hname
  have hnames : (p.join ⟨name⟩).names =
      ((Text.pieces slash front).map String.ofList).filter (· ≠ "") ++ [name] := by
    rw [names, pieces, hjoin, Text.pieces_append, List.map_append, hname.pieces_eq, List.filter_append]
    simp [hname.nonempty]
  rw [hnames, names, pieces]
  rcases hfront with hfront | hfront
  · rw [hfront]
  · rw [hfront, Text.pieces_append, List.map_append, List.filter_append]
    simp

theorem getLast?_pieces_join {p : FilePath} {name : String} (hp : p.text ≠ "") (hname : Plain name) :
    (p.join ⟨name⟩).pieces.getLast? = some name := by
  obtain ⟨front, hjoin, -⟩ := join_text hp hname
  rw [pieces, hjoin, Text.pieces_append, List.map_append, hname.pieces_eq, List.getLast?_concat]

theorem join_ne_empty {p : FilePath} {name : String} (hp : p.text ≠ "") (hname : Plain name) :
    (p.join ⟨name⟩).text ≠ "" := by
  obtain ⟨front, hjoin, -⟩ := join_text hp hname
  intro hempty
  rw [hempty] at hjoin
  simp at hjoin

theorem isAbsolute_join {p : FilePath} {name : String} (hp : p.text ≠ "") (hname : Plain name) :
    (p.join ⟨name⟩).isAbsolute = p.isAbsolute := by
  obtain ⟨front, hjoin, hfront⟩ := join_text hp hname
  have hhead : (p.join ⟨name⟩).text.toList.head? = p.text.toList.head? := by
    rw [hjoin]
    rcases hfront with hfront | hfront
    · rw [hfront]
      cases front with
      | nil => exact absurd (String.toList_eq_nil_iff.1 hfront) hp
      | cons c cs => rfl
    · rw [hfront]
      cases front with
      | nil => rfl
      | cons c cs => rfl
  rw [isAbsolute, isAbsolute, hhead]

theorem nul_mem_join {p : FilePath} {name : String} (hp : p.text ≠ "") (hname : Plain name) :
    '\x00' ∈ (p.join ⟨name⟩).text.toList ↔ '\x00' ∈ p.text.toList := by
  obtain ⟨front, hjoin, hfront⟩ := join_text hp hname
  have hslash : '\x00' ≠ slash := by decide
  rw [hjoin]
  rcases hfront with hfront | hfront
  · simp [hfront, hname.noNul, hslash]
  · simp [hfront, hname.noNul, hslash]

/-! ### Paths through given names -/

theorem ofNames_isAbsolute (names : List String) : (ofNames names).isAbsolute = true := by
  simp [ofNames, isAbsolute, slash]

theorem ofNames_ends (names : List String) (last : String) :
    ∃ front, (ofNames (names ++ [last])).text.toList = front ++ last.toList := by
  by_cases hnames : names = []
  · subst hnames
    exact ⟨"/".toList, by rw [ofNames, List.nil_append, String.intercalate_singleton, String.toList_append]⟩
  · refine ⟨("/" ++ "/".intercalate names ++ "/").toList, ?_⟩
    rw [ofNames, String.intercalate_append_of_ne_nil hnames (List.cons_ne_nil _ _),
      String.intercalate_singleton, ← String.toList_append]
    simp only [String.append_assoc]

theorem ofNames_concat {names : List String} {last name : String} (hlast : Plain last)
    (hname : Plain name) :
    ofNames (names ++ [last] ++ [name]) = (ofNames (names ++ [last])).join ⟨name⟩ := by
  obtain ⟨front, hfront⟩ := ofNames_ends names last
  have hend : (ofNames (names ++ [last])).text.toList.getLast? ≠ some slash := by
    intro h
    rw [hfront, List.getLast?_append] at h
    cases hlist : last.toList.getLast? with
    | none => exact hlast.nonempty (String.toList_eq_nil_iff.1 (List.getLast?_eq_none_iff.1 hlist))
    | some c =>
      rw [hlist, Option.some_or] at h
      exact hlast.noSlash (List.mem_of_getLast? (hlist.trans h))
  have hempty : (ofNames (names ++ [last])).text.isEmpty = false := by
    rw [← Bool.not_eq_true, String.isEmpty_iff]
    simp [ofNames]
  rw [join, if_neg (by rw [hname.not_isAbsolute]; exact Bool.false_ne_true),
    if_neg (by simp [hempty, hend]), ofNames, ofNames, FilePath.mk.injEq,
    String.intercalate_append_of_ne_nil (by simp) (List.cons_ne_nil _ _), String.intercalate_singleton]
  simp only [String.append_assoc]

/-! ### Extensions -/

/-- What is behind the last point of a name is its extension, if anything is in front of the point. -/
theorem cutExtension_append {stem extension : String} (hstem : stem ≠ "") (hpoint : '.' ∉ extension.toList) :
    cutExtension (stem ++ "." ++ extension) = (stem, some extension) := by
  have hcs : (stem ++ "." ++ extension).toList.reverse =
      extension.toList.reverse ++ '.' :: stem.toList.reverse := by simp
  have hback : '.' ∉ extension.toList.reverse := by rwa [List.mem_reverse]
  have htake := (Text.takeWhile_append_of_not_mem hback stem.toList.reverse).1
  have hfront : stem.toList.reverse.isEmpty = false := by simpa using hstem
  rw [cutExtension]
  simp only [hcs, htake, List.drop_left, hfront, Bool.false_eq_true, if_false, List.reverse_reverse,
    String.ofList_toList]

theorem eq_of_cutExtension {name stem extension : String} (h : cutExtension name = (stem, some extension)) :
    name = stem ++ "." ++ extension ∧ stem ≠ "" := by
  obtain ⟨rest, hrest⟩ := List.takeWhile_prefix (l := name.toList.reverse) fun c => decide (c ≠ '.')
  rw [cutExtension] at h
  generalize name.toList.reverse.takeWhile (fun c => decide (c ≠ '.')) = back at hrest h
  simp only [← hrest, List.drop_left] at h
  split at h
  · rename_i front
    split at h
    · cases h
    · rename_i hfront
      obtain ⟨rfl, hextension⟩ := Prod.mk.inj h
      obtain rfl := Option.some.inj hextension
      refine ⟨?_, by simpa using hfront⟩
      rw [← String.toList_inj, ← List.reverse_inj, ← hrest]
      simp
  · cases h

end FilePath
end PolicyCheck
