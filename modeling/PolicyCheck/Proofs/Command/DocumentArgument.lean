import PolicyCheck.Command.Invocation
import PolicyCheck.Proofs.Text.Numeral
import PolicyCheck.Proofs.Text.Pieces

/-!
# The words for documents to attach

A word is cut at its first two marks. It names a document exactly if what is in front is not empty, what
is in the middle is a numeral of 64 bits and something is behind, so that only the path may hold
marks. A mark in the middle would be the second one, so a word is read in one way at most.
-/

namespace PolicyCheck.Command.DocumentArgument

open Text (IsSigned FitsInt64)

theorem cut?_eq_some_iff {cs front rest : List Char} :
    cut? cs = some (front, rest) ↔ cs = front ++ separator :: rest ∧ separator ∉ front := by
  constructor
  · intro h
    rw [cut?] at h
    split at h
    · rename_i c tail hdrop
      obtain ⟨rfl, rfl⟩ := Prod.mk.inj (Option.some.inj h)
      have hsplit := List.takeWhile_append_dropWhile (p := (· ≠ separator)) (l := cs)
      have hmark : (cs.dropWhile (· ≠ separator)).head? = some c := by rw [hdrop, List.head?_cons]
      have hc := List.head?_dropWhile_not (· ≠ separator) cs
      rw [hmark] at hc
      obtain rfl : c = separator := by simpa using hc
      rw [hdrop] at hsplit
      exact ⟨hsplit.symm, fun hmem => by simpa using List.all_eq_true.1 List.all_takeWhile _ hmem⟩
    · cases h
  · rintro ⟨rfl, hfront⟩
    obtain ⟨htake, hdrop⟩ := Text.takeWhile_append_of_not_mem hfront rest
    rw [cut?, htake, hdrop]

/-- A word is a label, a numeral and a path with marks between them. -/
structure Reading (word numeral : String) (argument : DocumentArgument) : Prop where
  text : word = argument.label ++ ":" ++ numeral ++ ":" ++ argument.path.text
  label : argument.label ≠ "" ∧ separator ∉ argument.label.toList
  id : IsSigned numeral.toList argument.id ∧ FitsInt64 argument.id
  path : argument.path.text ≠ ""

theorem toList_parts (label numeral path : String) :
    (label ++ ":" ++ numeral ++ ":" ++ path).toList =
      label.toList ++ separator :: (numeral.toList ++ separator :: path.toList) := by
  simp [separator]

theorem separator_not_mem {cs : List Char} {n : Int} (h : IsSigned cs n) : separator ∉ cs := by
  cases h with
  | unsigned h => exact h.not_mem rfl
  | plus h => exact List.not_mem_cons_of_ne_of_not_mem (by decide) (h.not_mem rfl)
  | minus h => exact List.not_mem_cons_of_ne_of_not_mem (by decide) (h.not_mem rfl)

variable {word numeral numeral' : String} {argument argument' : DocumentArgument}

theorem Reading.unique (h : Reading word numeral argument) (h' : Reading word numeral' argument') :
    numeral = numeral' ∧ argument = argument' := by
  have htext := congrArg String.toList (h.text.symm.trans h'.text)
  rw [toList_parts, toList_parts] at htext
  obtain ⟨hlabel, hrest⟩ := Text.append_cons_inj_of_not_mem h.label.2 h'.label.2 htext
  obtain ⟨hnumeral, hpath⟩ :=
    Text.append_cons_inj_of_not_mem (separator_not_mem h.id.1) (separator_not_mem h'.id.1) hrest
  have hid : some argument.id = some argument'.id := by
    rw [← Text.int?_eq_some_iff.2 h.id.1, hnumeral, Text.int?_eq_some_iff.2 h'.id.1]
  obtain ⟨label, id, ⟨path⟩⟩ := argument
  obtain ⟨label', id', ⟨path'⟩⟩ := argument'
  obtain rfl := String.toList_inj.1 hlabel
  obtain rfl := Option.some.inj hid
  obtain rfl := String.toList_inj.1 hpath
  exact ⟨String.toList_inj.1 hnumeral, rfl⟩

theorem ofWord_eq_ok_iff :
    ofWord word = .ok argument ↔ ∃ numeral, Reading word numeral argument := by
  constructor
  · intro h
    rw [ofWord] at h
    split at h
    · cases h
    · rename_i label id path hparts
      split at h
      · rename_i n hn
        obtain rfl := Except.ok.inj h
        obtain ⟨⟨_, rest⟩, hlabel, hparts⟩ := Option.bind_eq_some_iff.1 hparts
        obtain ⟨⟨_, _⟩, hid, hparts⟩ := Option.bind_eq_some_iff.1 hparts
        obtain ⟨hgiven, hparts⟩ := Option.ite_none_left_eq_some.1 hparts
        obtain ⟨rfl, rfl, rfl⟩ := hparts
        obtain ⟨hword, hmark⟩ := cut?_eq_some_iff.1 hlabel
        obtain ⟨rfl, -⟩ := cut?_eq_some_iff.1 hid
        refine ⟨String.ofList id, ?_, ?_, ?_, ?_⟩
        · rw [← String.toList_inj, hword, toList_parts]
          simp
        · exact ⟨by simpa using mt Or.inl hgiven, by rwa [String.toList_ofList]⟩
        · rw [String.toList_ofList]
          exact Text.int64?_eq_some_iff.1 hn
        · simpa using mt Or.inr hgiven
      · cases h
  · rintro ⟨numeral, h⟩
    have hlabel := cut?_eq_some_iff.2 ⟨h.text ▸ toList_parts _ _ _, h.label.2⟩
    have hid : cut? (numeral.toList ++ separator :: argument.path.text.toList) = _ :=
      cut?_eq_some_iff.2 ⟨rfl, separator_not_mem h.id.1⟩
    have hgiven : ¬ (argument.label.toList.isEmpty = true ∨ argument.path.text.toList.isEmpty = true) := by
      simp [h.label.1, h.path]
    rw [ofWord]
    simp only [hlabel, hid, Option.bind_eq_bind, Option.bind_some, if_neg hgiven,
      Text.int64?_eq_some_iff.2 h.id, String.ofList_toList]

theorem reading_toString {label path : String} {n : Int} (hlabel : label ≠ "" ∧ separator ∉ label.toList)
    (hn : FitsInt64 n) (hpath : path ≠ "") :
    Reading (label ++ ":" ++ toString n ++ ":" ++ path) (toString n) ⟨label, n, ⟨path⟩⟩ :=
  ⟨rfl, hlabel, ⟨(Text.isInteger_toString n).isSigned, hn⟩, hpath⟩

/-- The words that are read are those with a reading. No word has two, and every label without a mark, every
integer of 64 bits and every path are read back from the word that they make, unless the label or the
path is empty. -/
theorem words_read_exactly :
    (∀ word argument, ofWord word = .ok argument ↔ ∃ numeral, Reading word numeral argument) ∧
      (∀ word numeral argument numeral' argument', Reading word numeral argument →
        Reading word numeral' argument' → numeral = numeral' ∧ argument = argument') ∧
      ∀ label n path, label ≠ "" ∧ separator ∉ label.toList → FitsInt64 n → path ≠ "" →
        ofWord (label ++ ":" ++ toString n ++ ":" ++ path) = .ok ⟨label, n, ⟨path⟩⟩ := by
  refine ⟨fun _ _ => ofWord_eq_ok_iff, fun _ _ _ _ _ h h' => h.unique h', ?_⟩
  intro label n path hlabel hn hpath
  exact ofWord_eq_ok_iff.2 ⟨toString n, reading_toString hlabel hn hpath⟩

/-- The least integer of 64 bits is read, and the path behind it may hold marks. -/
theorem words_read_exactly_least :
    ("a" ≠ "" ∧ separator ∉ "a".toList) ∧ FitsInt64 (-9223372036854775808) ∧ "b:c:" ≠ "" ∧
      ofWord "a:-9223372036854775808:b:c:" = .ok ⟨"a", -9223372036854775808, ⟨"b:c:"⟩⟩ := by
  have hlabel : "a" ≠ "" ∧ separator ∉ "a".toList := by decide
  have hn : FitsInt64 (-9223372036854775808) := by decide
  have hpath : "b:c:" ≠ "" := by decide
  exact ⟨hlabel, hn, hpath, words_read_exactly.2.2 "a" _ "b:c:" hlabel hn hpath⟩

end PolicyCheck.Command.DocumentArgument
