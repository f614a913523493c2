import Mathlib.Tactic.SplitIfs
import PolicyCheck.Proofs.Text.Pieces

/-!
# Lines of texts

The lines of a text, read from its front: a line with its break in front of other text, or text without
a break. What holds of every text is proved by `line_induction` over these two. Cutting a text into lines
takes nothing from it but line breaks and the carriage returns before them, so a word without either
stands in a text if and only if it stands in a line of it.
-/

namespace PolicyCheck.Text

variable {cs xs ys line rest word : List Char}

/-- Texts by their lines: a text without a line break, or a line in front of a break and a text. -/
@[elab_as_elim]
theorem line_induction {motive : List Char → Prop} (last : ∀ cs, '\n' ∉ cs → motive cs)
    (line : ∀ line rest, '\n' ∉ line → motive rest → motive (line ++ '\n' :: rest)) (cs : List Char) :
    motive cs := by
  by_cases hbreak : '\n' ∈ cs
  · obtain ⟨front, rest, rfl, hfront⟩ := List.eq_append_cons_of_mem hbreak
    have hlength : rest.length < (front ++ '\n' :: rest).length := by
      rw [List.length_append, List.length_cons]
      omega
    exact line front rest hfront (line_induction last line rest)
  · exact last cs hbreak
termination_by cs.length

/-! ### The lines of a text -/

theorem lines_of_not_mem (h : '\n' ∉ cs) : lines cs = if cs = [] then [] else [cs] := by
  rw [lines, pieces_of_not_mem h]
  cases cs <;> rfl

theorem lines_append (h : '\n' ∉ line) : lines (line ++ '\n' :: rest) = dropReturn line :: lines rest := by
  obtain ⟨piece, others, hpieces⟩ := List.exists_cons_of_ne_nil (pieces_ne_nil '\n' rest)
  rw [lines, lines, pieces_append, pieces_of_not_mem h, hpieces]
  rfl

theorem dropReturn_eq_or (line : List Char) : line = dropReturn line ∨ line = dropReturn line ++ ['\r'] := by
  rw [dropReturn]
  split_ifs with h
  · obtain ⟨front, rfl⟩ := List.getLast?_eq_some_iff.1 h
    right
    rw [List.dropLast_concat]
  · exact .inl rfl

theorem dropReturn_of_not_mem (h : '\r' ∉ line) : dropReturn line = line :=
  if_neg fun hlast => h (List.mem_of_getLast? hlast)

theorem dropReturn_append_cons {c : Char} (h : c ≠ '\r') (xs ys : List Char) :
    dropReturn (xs ++ c :: ys) = xs ++ c :: dropReturn ys := by
  cases ys with
  | nil =>
    rw [dropReturn, List.getLast?_concat, if_neg (mt Option.some.inj h)]
    rfl
  | cons y ys =>
    have hlast : (xs ++ c :: y :: ys).getLast? = (y :: ys).getLast? := by
      rw [List.getLast?_append, List.getLast?_cons_cons, List.getLast?_cons]
      rfl
    rw [dropReturn, dropReturn, hlast]
    split_ifs
    · rw [List.dropLast_append_cons, List.dropLast_cons_of_ne_nil (List.cons_ne_nil y ys)]
    · rfl

/-! ### Words in lines -/

theorem infix_append_cons_iff {c : Char} (hne : word ≠ []) (hc : c ∉ word) :
    word <:+: xs ++ c :: ys ↔ word <:+: xs ∨ word <:+: ys := by
  have hfront {part : List Char} (hpart : c ∉ part) (hbegin : part <+: c :: ys) : part = [] := by
    obtain rfl | ⟨others, rfl, -⟩ := List.prefix_cons_iff.1 hbegin
    · rfl
    · exact absurd List.mem_cons_self hpart
  have hbehind : word <:+: c :: ys ↔ word <:+: ys := by
    rw [List.infix_cons_iff, or_iff_right fun hbegin => hne (hfront hc hbegin)]
  rw [List.infix_append_iff, hbehind]
  constructor
  · rintro (hxs | hys | ⟨front, back, rfl, hsuffix, hbegin⟩)
    · exact .inl hxs
    · exact .inr hys
    · obtain rfl := hfront (fun hmem => hc (List.mem_append_right front hmem)) hbegin
      rw [List.append_nil]
      exact .inl hsuffix.isInfix
  · rintro (hxs | hys)
    · exact .inl hxs
    · exact .inr (.inl hys)

theorem infix_dropReturn_iff (hne : word ≠ []) (hreturn : '\r' ∉ word) :
    word <:+: dropReturn line ↔ word <:+: line := by
  rcases dropReturn_eq_or line with heq | heq
  · rw [← heq]
  · have hwhole : word <:+: dropReturn line ++ ['\r'] ↔ word <:+: dropReturn line := by
      rw [infix_append_cons_iff hne hreturn, List.infix_nil, or_iff_left hne]
    rw [← hwhole, ← heq]

/-- A word without line breaks and carriage returns stands in a line if it stands in the text. -/
theorem any_lines_contains_iff (hne : word ≠ []) (hbreak : '\n' ∉ word) (hreturn : '\r' ∉ word)
    (cs : List Char) : (lines cs).any (contains word) = true ↔ word <:+: cs := by
  induction cs using line_induction with
  | last cs hcs =>
    rw [lines_of_not_mem hcs]
    split_ifs with hnil
    · rw [hnil, List.infix_nil, List.any_nil]
      exact iff_of_false Bool.false_ne_true hne
    · rw [List.any_cons, List.any_nil, Bool.or_false, contains_iff_infix]
  | line line rest hline ih =>
    rw [lines_append hline, List.any_cons, Bool.or_eq_true, ih, contains_iff_infix,
      infix_dropReturn_iff hne hreturn, infix_append_cons_iff hne hbreak]

end PolicyCheck.Text
