import PolicyCheck.Text.Pieces

/-!
# Pieces of texts

What it means that one text occurs in another, and how a text is put together from its pieces. A text
that is joined with line breaks from texts without any has just these as its lines.
-/

namespace PolicyCheck.Text

theorem contains_iff_infix {needle cs : List Char} : contains needle cs = true ↔ needle <:+: cs := by
  induction cs with
  | nil => rw [contains, List.isEmpty_iff, List.infix_nil]
  | cons c cs ih =>
    rw [contains, Bool.or_eq_true, List.isPrefixOf_iff_prefix, ih, List.infix_cons_iff]

theorem pieces_append (separator : Char) (xs ys : List Char) :
    pieces separator (xs ++ separator :: ys) = pieces separator xs ++ pieces separator ys := by
  induction xs with
  | nil => simp [pieces, cut]
  | cons c cs ih =>
    simp only [pieces, List.cons_append, cut] at ih ⊢
    by_cases hc : c = separator
    · simp only [if_pos hc, List.cons_append, ih]
    · rw [List.cons.injEq] at ih
      simp only [if_neg hc, ih]

theorem pieces_of_not_mem {separator : Char} {cs : List Char} (hcs : separator ∉ cs) :
    pieces separator cs = [cs] := by
  induction cs with
  | nil => rfl
  | cons c cs ih =>
    obtain ⟨hc, hcs⟩ := not_or.1 (mt List.mem_cons.2 hcs)
    have hrest := ih hcs
    simp only [pieces, cut, List.cons.injEq] at hrest ⊢
    rw [if_neg (Ne.symm hc), hrest.1, hrest.2]
    exact ⟨rfl, rfl⟩

/-- The last piece of a text that does not end in a separator has the last character of the text. -/
theorem getLast?_pieces_concat {separator c : Char} (hc : c ≠ separator) (cs : List Char) :
    ∃ front, (pieces separator (cs ++ [c])).getLast? = some (front ++ [c]) := by
  induction cs with
  | nil =>
    refine ⟨[], ?_⟩
    rw [List.nil_append, pieces_of_not_mem (by simpa using Ne.symm hc)]
    rfl
  | cons d cs ih =>
    obtain ⟨front, hfront⟩ := ih
    simp only [List.cons_append, pieces, cut] at hfront ⊢
    by_cases hd : d = separator
    · rw [if_pos hd]
      exact ⟨front, by rw [List.getLast?_cons_cons, hfront]⟩
    · rw [if_neg hd]
      cases hothers : (cut separator (cs ++ [c])).2 with
      | nil =>
        rw [hothers, List.getLast?_singleton, Option.some.injEq] at hfront
        exact ⟨d :: front, by rw [List.getLast?_singleton, hfront]; rfl⟩
      | cons piece pieces =>
        rw [hothers, List.getLast?_cons_cons] at hfront
        exact ⟨front, by rw [List.getLast?_cons_cons, hfront]⟩

theorem pieces_join {separator : Char} {ps : List (List Char)} (hps : ps ≠ [])
    (hpieces : ∀ piece ∈ ps, separator ∉ piece) : pieces separator (join [separator] ps) = ps := by
  induction ps with
  | nil => exact absurd rfl hps
  | cons piece ps ih =>
    obtain ⟨hpiece, hothers⟩ := List.forall_mem_cons.1 hpieces
    cases ps with
    | nil => exact pieces_of_not_mem hpiece
    | cons next ps =>
      rw [join_cons_cons, List.append_assoc, List.singleton_append, pieces_append, pieces_of_not_mem hpiece,
        ih (List.cons_ne_nil _ _) hothers, List.singleton_append]

theorem mem_join {separator : List Char} {ps : List (List Char)} {c : Char} (hc : c ∉ separator) :
    c ∈ join separator ps ↔ ∃ piece ∈ ps, c ∈ piece := by
  induction ps with
  | nil => simp [join]
  | cons piece ps ih =>
    cases ps with
    | nil => simp [join]
    | cons next ps =>
      rw [join_cons_cons, List.mem_append, List.mem_append, ih]
      simp [hc]

theorem length_pieces (separator : Char) (cs : List Char) :
    (pieces separator cs).length = cs.count separator + 1 := by
  induction cs with
  | nil => rfl
  | cons c cs ih =>
    simp only [pieces, cut, List.length_cons] at ih ⊢
    by_cases hc : c = separator
    · rw [if_pos hc, hc, List.count_cons_self, List.length_cons, ih]
    · rw [if_neg hc, List.count_cons_of_ne hc, ih]

theorem mem_of_mem_pieces {separator : Char} {cs piece : List Char} (h : piece ∈ pieces separator cs) :
    separator ∉ piece ∧ ∀ c ∈ piece, c ∈ cs := by
  induction cs generalizing piece with
  | nil =>
    rw [List.mem_singleton.1 h]
    exact ⟨List.not_mem_nil, List.forall_mem_nil _⟩
  | cons c cs ih =>
    have hfirst := ih List.mem_cons_self
    rw [pieces] at h
    simp only [cut] at h
    by_cases hc : c = separator
    · rw [if_pos hc] at h
      rcases List.mem_cons.1 h with rfl | hother
      · exact ⟨List.not_mem_nil, List.forall_mem_nil _⟩
      · obtain ⟨hout, hall⟩ := ih hother
        exact ⟨hout, fun d hd => List.mem_cons_of_mem _ (hall d hd)⟩
    · rw [if_neg hc] at h
      rcases List.mem_cons.1 h with rfl | hother
      · refine ⟨List.not_mem_cons_of_ne_of_not_mem (Ne.symm hc) hfirst.1, fun d hd => ?_⟩
        rcases List.mem_cons.1 hd with rfl | hd
        · exact List.mem_cons_self
        · exact List.mem_cons_of_mem _ (hfirst.2 d hd)
      · obtain ⟨hout, hall⟩ := ih (List.mem_cons_of_mem _ hother)
        exact ⟨hout, fun d hd => List.mem_cons_of_mem _ (hall d hd)⟩

theorem takeWhile_append_of_not_mem {c : Char} {cs : List Char} (h : c ∉ cs) (rest : List Char) :
    (cs ++ c :: rest).takeWhile (· ≠ c) = cs ∧ (cs ++ c :: rest).dropWhile (· ≠ c) = c :: rest := by
  have hne : ∀ d ∈ cs, decide (d ≠ c) = true := fun d hd => decide_eq_true fun heq => h (heq ▸ hd)
  rw [List.takeWhile_append_of_pos hne, List.dropWhile_append_of_pos hne]
  simp

theorem append_cons_inj_of_not_mem {c : Char} {cs cs' rest rest' : List Char} (h : c ∉ cs)
    (h' : c ∉ cs') (heq : cs ++ c :: rest = cs' ++ c :: rest') : cs = cs' ∧ rest = rest' := by
  induction cs generalizing cs' with
  | nil =>
    cases cs' with
    | nil => exact ⟨rfl, List.cons_inj_right c |>.1 heq⟩
    | cons d cs' =>
      obtain ⟨hd, -⟩ := List.cons_eq_cons.1 heq
      exact absurd (hd ▸ List.mem_cons_self) h'
  | cons d cs ih =>
    cases cs' with
    | nil =>
      obtain ⟨hd, -⟩ := List.cons_eq_cons.1 heq
      exact absurd (hd ▸ List.mem_cons_self) h
    | cons d' cs' =>
      obtain ⟨rfl, htail⟩ := List.cons_eq_cons.1 heq
      obtain ⟨rfl, hrest⟩ := ih (List.not_mem_of_not_mem_cons h)
        (List.not_mem_of_not_mem_cons h') htail
      exact ⟨rfl, hrest⟩

/-! ### Lines -/

def textLines (text : String) : List String := (pieces '\n' text.toList).map String.ofList

def OneLine (text : String) : Prop := '\n' ∉ text.toList

instance (text : String) : Decidable (OneLine text) := inferInstanceAs (Decidable (¬ _))

variable {a b separator : String} {parts : List String}

theorem oneLine_append : OneLine (a ++ b) ↔ OneLine a ∧ OneLine b := by
  rw [OneLine, String.toList_append, List.mem_append, not_or, OneLine, OneLine]

theorem oneLine_intercalate (hseparator : OneLine separator) (hparts : ∀ part ∈ parts, OneLine part) :
    OneLine (separator.intercalate parts) := by
  induction parts with
  | nil => simp [OneLine]
  | cons part parts ih =>
    obtain ⟨hpart, hrest⟩ := List.forall_mem_cons.1 hparts
    cases parts with
    | nil => rwa [String.intercalate_singleton]
    | cons next parts =>
      rw [String.intercalate_cons_cons, oneLine_append, oneLine_append]
      exact ⟨⟨hpart, hseparator⟩, ih hrest⟩

theorem textLines_of_oneLine (h : OneLine a) : textLines a = [a] := by
  rw [textLines, pieces_of_not_mem h, List.map_singleton, String.ofList_toList]

theorem flatMap_textLines (h : ∀ part ∈ parts, OneLine part) : parts.flatMap textLines = parts := by
  induction parts with
  | nil => rfl
  | cons part parts ih =>
    obtain ⟨hpart, hrest⟩ := List.forall_mem_cons.1 h
    rw [List.flatMap_cons, textLines_of_oneLine hpart, ih hrest, List.singleton_append]

theorem textLines_append (a b : String) : textLines (a ++ "\n" ++ b) = textLines a ++ textLines b := by
  have hbreak : (a ++ "\n" ++ b).toList = a.toList ++ '\n' :: b.toList := by simp
  rw [textLines, hbreak, pieces_append, List.map_append, textLines, textLines]

theorem textLines_intercalate (h : parts ≠ []) :
    textLines ("\n".intercalate parts) = parts.flatMap textLines := by
  induction parts with
  | nil => exact absurd rfl h
  | cons part parts ih =>
    cases parts with
    | nil => rw [String.intercalate_singleton, List.flatMap_singleton]
    | cons next parts =>
      rw [String.intercalate_cons_cons, textLines_append, ih (List.cons_ne_nil _ _),
        List.flatMap_cons (x := part)]

theorem intercalate_append_break (part : String) (parts : List String) :
    "\n".intercalate (part :: parts) ++ "\n" = String.join ((part :: parts).map (· ++ "\n")) := by
  induction parts generalizing part with
  | nil => rw [String.intercalate_singleton, List.map_singleton, String.join_cons, String.join_nil, String.append_empty]
  | cons next parts ih =>
    rw [String.intercalate_cons_cons, String.append_assoc, ih, List.map_cons (a := part), String.join_cons]

theorem textLines_join (parts : List String) (rest : String) :
    textLines (String.join (parts.map (· ++ "\n")) ++ rest) = parts.flatMap textLines ++ textLines rest := by
  induction parts with
  | nil => rw [List.map_nil, String.join_nil, String.empty_append, List.flatMap_nil, List.nil_append]
  | cons part parts ih =>
    rw [List.map_cons, String.join_cons, String.append_assoc, textLines_append, ih, List.flatMap_cons,
      List.append_assoc]

end PolicyCheck.Text
