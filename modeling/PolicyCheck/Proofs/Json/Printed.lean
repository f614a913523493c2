import PolicyCheck.Json.Printer
import PolicyCheck.Json.Syntax
import PolicyCheck.Proofs.Text.Numeral

/-!
# Reading what was printed

The indented text of a value is read back as the value: strings as they were before they were escaped,
and fields in the order in which they were printed. Numbers are followed as far as integers go, which
are all that a report holds.
-/

namespace PolicyCheck.Json

open Syntax

/-! ### The value as it is read -/

def numeral? : Number → Option Numeral
  | .int n => some ⟨decide (n < 0), n.natAbs, 0, true⟩
  | .double _ => none

mutual

/-- What the text of a value is read as, if all of its numbers are integers. -/
def written? : Json → Option Syntax
  | .null => some .null
  | .bool value => some (.bool value)
  | .number n => (numeral? n).map .number
  | .string text => some (.string (some text))
  | .array items => (writtenItems? items).map .array
  | .object fields => (writtenFields? fields).map .object

def writtenItems? : List Json → Option (List Syntax)
  | [] => some []
  | item :: items => do return (← written? item) :: (← writtenItems? items)

def writtenFields? : List (String × Json) → Option (List (Option String × Syntax))
  | [] => some []
  | (key, value) :: fields => do return (some key, ← written? value) :: (← writtenFields? fields)

end

/-! ### Strings -/

namespace Syntax

/-- How a character is written: those that are neither printed as they are nor have a letter of their
own are written as code units. -/
def atomOf (c : Char) : Atom :=
  if c.toNat < 0x20 ∧ c ∉ ['\x08', '\x0c', '\n', '\r', '\t'] then .unit c.toNat else .char c

theorem joinUnits_atomOf (acc : List Char) (c : Char) (atoms : List Atom) :
    joinUnits acc (atomOf c :: atoms) = joinUnits (c :: acc) atoms := by
  rw [atomOf]
  split
  · rename_i hc
    have hhigh : ¬ (0xD800 ≤ c.toNat ∧ c.toNat < 0xDC00) := by omega
    have hlow : ¬ (0xDC00 ≤ c.toNat ∧ c.toNat < 0xE000) := by omega
    have hboth : ¬ (0xD800 ≤ c.toNat ∧ c.toNat < 0xE000) := by omega
    match atoms with
    | [] => simp only [joinUnits, if_neg hboth, Char.ofNat_toNat]
    | .char d :: atoms => simp only [joinUnits, if_neg hboth, Char.ofNat_toNat]
    | .unit d :: atoms => rw [joinUnits, if_neg hhigh, if_neg hlow, Char.ofNat_toNat]
  · rfl

theorem joinUnits_map_atomOf (acc cs : List Char) :
    joinUnits acc (cs.map atomOf) = some (String.ofList (acc.reverse ++ cs)) := by
  induction cs generalizing acc with
  | nil => rw [List.map_nil, joinUnits, List.append_nil]
  | cons c cs ih => rw [List.map_cons, joinUnits_atomOf, ih, List.reverse_cons, List.append_assoc]; rfl

theorem natOfBase?_hexDigits :
    ∀ n < 0x20, Text.natOfBase? 16 ['0', '0', Text.hexDigit (n / 16), Text.hexDigit (n % 16)] = some n := by
  decide

theorem readString_escapeChar (acc : List Atom) (c : Char) (rest : List Char) :
    readString acc (escapeChar c ++ rest) = readString (atomOf c :: acc) rest := by
  rw [escapeChar.eq_def]
  split
  · rfl
  · rfl
  · rfl
  · rfl
  · rfl
  · rfl
  · rfl
  · rename_i hquote hslash hb hf hn hr ht
    by_cases hc : c.toNat < 0x20
    · have hatom : atomOf c = .unit c.toNat := by
        rw [atomOf, if_pos]
        simp only [List.mem_cons, List.not_mem_nil, or_false, not_or]
        exact ⟨hc, hb, hf, hn, hr, ht⟩
      rw [if_pos hc, hatom]
      simp only [List.cons_append, List.nil_append]
      rw [readString, natOfBase?_hexDigits c.toNat hc]
    · have hatom : atomOf c = .char c := by rw [atomOf, if_neg fun h => hc h.1]
      rw [if_neg hc, hatom, List.singleton_append, readString]
      · rw [if_neg (not_or.2 ⟨hc, hslash⟩)]
      · exact hquote
      · exact fun _ _ _ _ _ h => absurd h hslash
      · exact fun _ _ h => absurd h hslash

theorem readString_escaped (acc : List Atom) (cs rest : List Char) :
    readString acc (cs.flatMap escapeChar ++ '"' :: rest) =
      some (joinUnits [] (acc.reverse ++ cs.map atomOf), rest) := by
  induction cs generalizing acc with
  | nil =>
    rw [List.flatMap_nil, List.nil_append, List.map_nil, List.append_nil]
    rfl
  | cons c cs ih =>
    rw [List.flatMap_cons, List.append_assoc, readString_escapeChar, ih, List.reverse_cons,
      List.append_assoc]
    rfl

theorem toList_quoted (text : String) :
    (quoted text).toList = '"' :: (text.toList.flatMap escapeChar ++ ['"']) := by
  simp only [quoted, String.toList_append, String.toList_ofList]
  rfl

theorem readString_quoted (text : String) (rest : List Char) :
    readString [] (text.toList.flatMap escapeChar ++ '"' :: rest) = some (some text, rest) := by
  rw [readString_escaped, List.reverse_nil, List.nil_append, joinUnits_map_atomOf, List.reverse_nil,
    List.nil_append, String.ofList_toList]

/-! ### Spaces and what may follow a value -/

def Spaces (cs : List Char) : Prop := ∀ c ∈ cs, isSpace c = true

theorem skip_append {lead : List Char} (h : Spaces lead) (cs : List Char) : skip (lead ++ cs) = skip cs :=
  List.dropWhile_append_of_pos h

theorem skip_cons {c : Char} (h : isSpace c = false) (cs : List Char) : skip (c :: cs) = c :: cs :=
  List.dropWhile_cons_of_neg (by simp [h])

theorem readValue_append {lead : List Char} (h : Spaces lead) (fuel : Nat) (cs : List Char) :
    readValue fuel (lead ++ cs) = readValue fuel cs := by
  cases fuel with
  | zero => rfl
  | succ fuel => simp only [readValue, skip_append h]

theorem spaces_newline (level : Nat) : Spaces (newline level).toList := by
  intro c hc
  simp only [newline, String.toList_append, String.toList_ofList] at hc
  rcases List.mem_append.1 hc with hc | hc
  · rw [List.mem_singleton.1 hc]
    rfl
  · rw [List.eq_of_mem_replicate hc]
    rfl

/-- A comma or a line break comes next, as after every printed value. -/
def Follows (rest : List Char) : Prop := ∃ c cs, rest = c :: cs ∧ (c = ',' ∨ c = '\n')

theorem follows_newline (level : Nat) (rest : List Char) : Follows ((newline level).toList ++ rest) := by
  rw [newline, String.toList_append]
  exact ⟨'\n', _, rfl, .inr rfl⟩

/-! ### Numbers -/

theorem readNumber_toString (negative : Bool) (n : Nat) {rest : List Char} (hrest : Follows rest) :
    readNumber negative ((toString n).toList ++ rest) = some (⟨negative, n, 0, true⟩, rest) := by
  obtain ⟨c, cs, rfl, hc⟩ := hrest
  obtain ⟨hne, hdigits⟩ := Text.digits_toString n
  have hdigits : ∀ d ∈ (toString n).toList, Text.isDigit d = true := fun d hd =>
    Text.isDigit_of_isDigit (hdigits d hd)
  have hstop : Text.isDigit c = false := by rcases hc with rfl | rfl <;> rfl
  have htake : ((toString n).toList ++ c :: cs).takeWhile Text.isDigit = (toString n).toList := by
    rw [List.takeWhile_append_of_pos hdigits, List.takeWhile_cons_of_neg (by simp [hstop]), List.append_nil]
  have hdrop : ((toString n).toList ++ c :: cs).dropWhile Text.isDigit = c :: cs := by
    rw [List.dropWhile_append_of_pos hdigits, List.dropWhile_cons_of_neg (by simp [hstop])]
  have hzero : ¬ ((toString n).toList.head? = some '0' ∧ (toString n).toList.length ≠ 1) := by
    rintro ⟨hhead, hlength⟩
    rcases Nat.eq_zero_or_pos n with rfl | hpos
    · exact hlength rfl
    · exact Text.head?_toString hpos hhead
  have hempty : ¬ (toString n).toList.isEmpty = true := mt List.isEmpty_iff.1 hne
  have hread := Text.nat?_toString n
  rw [readNumber, htake, hdrop]
  generalize (toString n).toList = digits at hzero hempty hread
  rcases hc with rfl | rfl <;> simp [hempty, hzero, hread, readExponent]

theorem readValue_of_isDigit {d : Char} (hd : d.isDigit = true) (fuel : Nat) (cs : List Char) :
    readValue (fuel + 1) (d :: cs) = (readNumber false (d :: cs)).map fun (n, rest) => (.number n, rest) := by
  have hne (c : Char) (hc : c.isDigit = false) : d ≠ c := by
    rintro rfl
    exact Bool.false_ne_true (hc.symm.trans hd)
  have hspace : isSpace d = false := by
    simp only [isSpace, decide_eq_false (hne ' ' rfl), decide_eq_false (hne '\n' rfl),
      decide_eq_false (hne '\t' rfl), decide_eq_false (hne '\r' rfl), Bool.or_false]
  rw [readValue, skip_cons hspace]
  split
  · rename_i heq
    exact absurd (List.cons.inj heq).1 (hne '"' rfl)
  · rename_i heq
    exact absurd (List.cons.inj heq).1 (hne '[' rfl)
  · rename_i heq
    exact absurd (List.cons.inj heq).1 (hne '\x7b' rfl)
  · rename_i heq
    exact absurd (List.cons.inj heq).1 (hne 'n' rfl)
  · rename_i heq
    exact absurd (List.cons.inj heq).1 (hne 't' rfl)
  · rename_i heq
    exact absurd (List.cons.inj heq).1 (hne 'f' rfl)
  · rename_i heq
    exact absurd (List.cons.inj heq).1 (hne '-' rfl)
  · rfl

theorem readValue_toString (n : Int) (fuel : Nat) {rest : List Char} (hrest : Follows rest) :
    readValue (fuel + 1) ((toString n).toList ++ rest) =
      some (.number ⟨decide (n < 0), n.natAbs, 0, true⟩, rest) := by
  cases n with
  | ofNat n =>
    have hread := readNumber_toString false n hrest
    obtain ⟨hne, hdigits⟩ := Text.digits_toString n
    obtain ⟨d, ds, hcons⟩ := List.exists_cons_of_ne_nil hne
    have htext : (toString (Int.ofNat n)).toList = d :: ds := hcons
    rw [hcons] at hread hdigits
    rw [htext, List.cons_append, readValue_of_isDigit (hdigits d List.mem_cons_self), ← List.cons_append,
      hread]
    simp
  | negSucc n =>
    have hread := readNumber_toString true (n + 1) hrest
    have hsign : toString (Int.negSucc n) = "-" ++ toString (n + 1) := rfl
    have htext : (toString (Int.negSucc n)).toList = '-' :: (toString (n + 1)).toList := by
      rw [hsign, String.toList_append]
      rfl
    rw [htext, List.cons_append]
    show (readNumber true _).map _ = _
    rw [hread]
    simp

/-! ### Arrays and objects -/

theorem skip_skip (cs : List Char) : skip (skip cs) = skip cs := by
  induction cs with
  | nil => rfl
  | cons c cs ih =>
    cases hc : isSpace c with
    | true => rw [show skip (c :: cs) = skip cs from List.dropWhile_cons_of_pos hc, ih]
    | false => rw [skip_cons hc, skip_cons hc]

theorem readValue_skip (fuel : Nat) (cs : List Char) : readValue fuel (skip cs) = readValue fuel cs := by
  cases fuel with
  | zero => rfl
  | succ fuel => simp only [readValue, skip_skip]

theorem readItems_skip (fuel : Nat) (acc : List Syntax) (cs : List Char) :
    readItems fuel acc (skip cs) = readItems fuel acc cs := by
  cases fuel with
  | zero => rfl
  | succ fuel => simp only [readItems, readValue_skip]

theorem readFields_skip (fuel : Nat) (acc : List (Option String × Syntax)) (cs : List Char) :
    readFields fuel acc (skip cs) = readFields fuel acc cs := by
  cases fuel with
  | zero => rfl
  | succ fuel => simp only [readFields, skip_skip]

theorem readValue_array {fuel : Nat} {cs : List Char} {result : Syntax × List Char}
    (h : readItems fuel [] cs = some result) : readValue (fuel + 1) ('[' :: cs) = some result := by
  rw [← readItems_skip] at h
  simp only [readValue, skip_cons (c := '[') rfl]
  split
  · rename_i rest hskip
    rw [hskip] at h
    cases fuel with
    | zero => cases h
    | succ fuel =>
      cases fuel with
      | zero => cases h
      | succ fuel => cases h
  · exact h

theorem readValue_object {fuel : Nat} {cs : List Char} {result : Syntax × List Char}
    (h : readFields fuel [] cs = some result) : readValue (fuel + 1) ('\x7b' :: cs) = some result := by
  rw [← readFields_skip] at h
  simp only [readValue, skip_cons (c := '\x7b') rfl]
  split
  · rename_i rest hskip
    rw [hskip] at h
    cases fuel with
    | zero => cases h
    | succ fuel => cases h
  · exact h

variable {fuel : Nat} {lead text below more rest : List Char} {result : Syntax × List Char}

theorem readItems_last {acc : List Syntax} {item : Syntax} (hlead : Spaces lead) (hbelow : Spaces below)
    (h : readValue fuel (text ++ (below ++ ']' :: rest)) = some (item, below ++ ']' :: rest)) :
    readItems (fuel + 1) acc (lead ++ (text ++ (below ++ ']' :: rest))) =
      some (.array (acc.reverse ++ [item]), rest) := by
  rw [readItems, readValue_append hlead, h, ← List.reverse_cons]
  simp only [skip_append hbelow, skip_cons (c := ']') rfl]

theorem readItems_more {acc : List Syntax} {item : Syntax} (hlead : Spaces lead)
    (h : readValue fuel (text ++ ',' :: more) = some (item, ',' :: more))
    (hmore : readItems fuel (item :: acc) more = some result) :
    readItems (fuel + 1) acc (lead ++ (text ++ ',' :: more)) = some result := by
  rw [readItems, readValue_append hlead, h]
  simp only [skip_cons (c := ',') rfl]
  exact hmore

def fieldStart (key : String) : List Char := (quoted key).toList ++ [':', ' ']

theorem fieldStart_append (key : String) (text : List Char) :
    fieldStart key ++ text = '"' :: (key.toList.flatMap escapeChar ++ '"' :: ':' :: ' ' :: text) := by
  simp only [fieldStart, toList_quoted, List.append_assoc, List.cons_append, List.nil_append]

theorem readValue_space (fuel : Nat) (text : List Char) : readValue fuel (' ' :: text) = readValue fuel text :=
  readValue_append (fun _ hc => List.mem_singleton.1 hc ▸ rfl) fuel text

theorem readFields_last {acc : List (Option String × Syntax)} {key : String} {value : Syntax}
    (hlead : Spaces lead) (hbelow : Spaces below)
    (h : readValue fuel (text ++ (below ++ '\x7d' :: rest)) = some (value, below ++ '\x7d' :: rest)) :
    readFields (fuel + 1) acc (lead ++ (fieldStart key ++ (text ++ (below ++ '\x7d' :: rest)))) =
      some (.object (acc.reverse ++ [(some key, value)]), rest) := by
  rw [readFields, skip_append hlead, fieldStart_append, skip_cons rfl, ← List.reverse_cons]
  simp only [readString_quoted, skip_cons (c := ':') rfl, readValue_space, h, skip_append hbelow,
    skip_cons (c := '\x7d') rfl]

theorem readFields_more {acc : List (Option String × Syntax)} {key : String} {value : Syntax}
    (hlead : Spaces lead) (h : readValue fuel (text ++ ',' :: more) = some (value, ',' :: more))
    (hmore : readFields fuel ((some key, value) :: acc) more = some result) :
    readFields (fuel + 1) acc (lead ++ (fieldStart key ++ (text ++ ',' :: more))) = some result := by
  rw [readFields, skip_append hlead, fieldStart_append, skip_cons rfl]
  simp only [readString_quoted, skip_cons (c := ':') rfl, readValue_space, h, skip_cons (c := ',') rfl, hmore]

/-! ### Values -/

theorem length_newline (level : Nat) : 1 ≤ (newline level).toList.length := by
  rw [newline, String.toList_append, List.length_append]
  exact Nat.le_add_right 1 _

/-- The mark between two parts on lines of their own. -/
def mark (level : Nat) : String := "," ++ newline level

def joined (level : Nat) (parts : List String) : List Char := ((mark level).intercalate parts).toList

theorem joined_singleton (level : Nat) (part : String) : joined level [part] = part.toList := by
  rw [joined, String.intercalate_singleton]

theorem joined_cons (level : Nat) (part : String) {parts : List String} (h : parts ≠ []) :
    joined level (part :: parts) = part.toList ++ ',' :: ((newline level).toList ++ joined level parts) := by
  obtain ⟨next, others, rfl⟩ := List.exists_cons_of_ne_nil h
  rw [joined, String.intercalate_cons_cons, String.toList_append, String.toList_append, mark,
    String.toList_append, List.append_assoc, List.append_assoc, joined, mark]
  rfl

theorem toList_indentedParts (opening closing : String) (level : Nat) {parts : List String}
    (hparts : parts ≠ []) :
    (indentedParts opening closing level parts).toList =
      opening.toList ++ ((newline (level + 1)).toList ++
        (joined (level + 1) parts ++ ((newline level).toList ++ closing.toList))) := by
  rw [indentedParts, if_neg (mt List.isEmpty_iff.1 hparts)]
  simp only [String.toList_append, List.append_assoc, joined, mark]

theorem toList_indentedParts_nil (opening closing : String) (level : Nat) :
    (indentedParts opening closing level []).toList = opening.toList ++ closing.toList := by
  rw [indentedParts, if_pos List.isEmpty_nil, String.toList_append]

theorem indentedItems_ne_nil {items : List Json} (h : items ≠ []) (level : Nat) :
    indentedItems level items ≠ [] := by
  obtain ⟨item, items, rfl⟩ := List.exists_cons_of_ne_nil h
  rw [indentedItems]
  exact List.cons_ne_nil _ _

theorem indentedFields_ne_nil {fields : List (String × Json)} (h : fields ≠ []) (level : Nat) :
    indentedFields level fields ≠ [] := by
  obtain ⟨⟨key, value⟩, fields, rfl⟩ := List.exists_cons_of_ne_nil h
  rw [indentedFields]
  exact List.cons_ne_nil _ _

theorem readValue_scalar {value : Json} {s : Syntax} (hs : value.written? = some s)
    (harray : ∀ items, value ≠ .array items) (hobject : ∀ fields, value ≠ .object fields) (level fuel : Nat)
    {rest : List Char} (hrest : Follows rest) :
    readValue (fuel + 1) ((indentedAt level value).toList ++ rest) = some (s, rest) := by
  cases value with
  | array items => exact absurd rfl (harray items)
  | object fields => exact absurd rfl (hobject fields)
  | null =>
    obtain rfl := Option.some.inj hs
    simp only [indentedAt, compact]
    rfl
  | bool b =>
    obtain rfl := Option.some.inj hs
    simp only [indentedAt, compact]
    cases b with
    | true => rfl
    | false => rfl
  | string text =>
    obtain rfl := Option.some.inj hs
    simp only [indentedAt, compact]
    rw [toList_quoted, List.cons_append, List.append_assoc, readValue, skip_cons rfl]
    exact congrArg (Option.map _) (readString_quoted text rest)
  | number n =>
    cases n with
    | double d => cases hs
    | int n =>
      obtain rfl := Option.some.inj hs
      simp only [indentedAt, compact, numberText]
      exact readValue_toString n fuel hrest

theorem toList_indentedAt_array (level : Nat) {items : List Json} (h : items ≠ []) :
    (indentedAt level (.array items)).toList =
      '[' :: ((newline (level + 1)).toList ++ (joined (level + 1) (indentedItems (level + 1) items) ++
        ((newline level).toList ++ [']']))) := by
  rw [indentedAt]
  exact toList_indentedParts "[" "]" level (indentedItems_ne_nil h _)

theorem toList_indentedAt_object (level : Nat) {fields : List (String × Json)} (h : fields ≠ []) :
    (indentedAt level (.object fields)).toList =
      '\x7b' :: ((newline (level + 1)).toList ++ (joined (level + 1) (indentedFields (level + 1) fields) ++
        ((newline level).toList ++ ['\x7d']))) := by
  rw [indentedAt]
  exact toList_indentedParts "\x7b" "\x7d" level (indentedFields_ne_nil h _)

theorem joined_indentedItems (level : Nat) (item : Json) {items : List Json} (h : items ≠ []) :
    joined level (indentedItems level (item :: items)) =
      (indentedAt level item).toList ++
        ',' :: ((newline level).toList ++ joined level (indentedItems level items)) := by
  rw [indentedItems, joined_cons level _ (indentedItems_ne_nil h level)]

theorem toList_indentedField (level : Nat) (key : String) (value : Json) :
    (quoted key ++ ": " ++ indentedAt level value).toList = fieldStart key ++ (indentedAt level value).toList := by
  rw [String.toList_append, String.toList_append]
  rfl

theorem joined_indentedFields (level : Nat) (key : String) (value : Json) {fields : List (String × Json)}
    (h : fields ≠ []) :
    joined level (indentedFields level ((key, value) :: fields)) =
      fieldStart key ++ ((indentedAt level value).toList ++
        ',' :: ((newline level).toList ++ joined level (indentedFields level fields))) := by
  rw [indentedFields, joined_cons level _ (indentedFields_ne_nil h level), toList_indentedField,
    List.append_assoc]

theorem writtenItems?_cons_eq_some {item : Json} {items : List Json} {ss : List Syntax}
    (h : writtenItems? (item :: items) = some ss) :
    ∃ s others, item.written? = some s ∧ writtenItems? items = some others ∧ ss = s :: others := by
  rw [writtenItems?] at h
  simp only [Option.bind_eq_bind, Option.bind_eq_some_iff, Option.pure_def, Option.some.injEq] at h
  obtain ⟨s, hs, others, hothers, rfl⟩ := h
  exact ⟨s, others, hs, hothers, rfl⟩

theorem writtenFields?_cons_eq_some {key : String} {value : Json} {fields : List (String × Json)}
    {ss : List (Option String × Syntax)} (h : writtenFields? ((key, value) :: fields) = some ss) :
    ∃ s others, value.written? = some s ∧ writtenFields? fields = some others ∧
      ss = (some key, s) :: others := by
  rw [writtenFields?] at h
  simp only [Option.bind_eq_bind, Option.bind_eq_some_iff, Option.pure_def, Option.some.injEq] at h
  obtain ⟨s, hs, others, hothers, rfl⟩ := h
  exact ⟨s, others, hs, hothers, rfl⟩

-- An item costs a step of fuel for itself and one for its place in the list, and is at least one character
-- long: hence twice the length.
mutual

/-- The text of a value is read as the value, at any level and whatever comes after it. -/
theorem readValue_indentedAt {value : Json} {s : Syntax} (hs : value.written? = some s) (level : Nat)
    {fuel : Nat} {rest : List Char} (hrest : Follows rest)
    (hfuel : 2 * (indentedAt level value).toList.length < fuel) :
    readValue fuel ((indentedAt level value).toList ++ rest) = some (s, rest) := by
  obtain ⟨fuel, rfl⟩ := Nat.exists_eq_add_one_of_ne_zero (Nat.ne_zero_of_lt hfuel)
  cases value with
  | array items =>
    obtain ⟨ss, hss, rfl⟩ := Option.map_eq_some_iff.1 hs
    rcases items with _ | ⟨item, items⟩
    · obtain rfl := Option.some.inj hss
      simp only [indentedAt, indentedItems, toList_indentedParts_nil]
      rfl
    · have hlength := length_newline (level + 1)
      rw [toList_indentedAt_array level (List.cons_ne_nil item items)] at hfuel ⊢
      simp only [List.length_cons, List.length_append] at hfuel
      simp only [List.cons_append, List.append_assoc]
      exact readValue_array (readItems_indented (List.cons_ne_nil item items) hss (level + 1)
        (spaces_newline _) (spaces_newline level) (follows_newline level _) (by omega))
  | object fields =>
    obtain ⟨ss, hss, rfl⟩ := Option.map_eq_some_iff.1 hs
    rcases fields with _ | ⟨field, fields⟩
    · obtain rfl := Option.some.inj hss
      simp only [indentedAt, indentedFields, toList_indentedParts_nil]
      rfl
    · have hlength := length_newline (level + 1)
      rw [toList_indentedAt_object level (List.cons_ne_nil field fields)] at hfuel ⊢
      simp only [List.length_cons, List.length_append] at hfuel
      simp only [List.cons_append, List.append_assoc]
      exact readValue_object (readFields_indented (List.cons_ne_nil field fields) hss (level + 1)
        (spaces_newline _) (spaces_newline level) (follows_newline level _) (by omega))
  | null | bool | number | string => exact readValue_scalar hs nofun nofun level fuel hrest

theorem readItems_indented {items : List Json} (hitems : items ≠ []) {ss : List Syntax}
    (hss : writtenItems? items = some ss) (level : Nat) {fuel : Nat} {acc : List Syntax}
    {lead below rest : List Char} (hlead : Spaces lead) (hbelow : Spaces below)
    (hrest : Follows (below ++ ']' :: rest))
    (hfuel : 2 * (joined level (indentedItems level items)).length + 1 < fuel) :
    readItems fuel acc (lead ++ (joined level (indentedItems level items) ++ (below ++ ']' :: rest))) =
      some (.array (acc.reverse ++ ss), rest) := by
  obtain ⟨fuel, rfl⟩ := Nat.exists_eq_add_one_of_ne_zero (Nat.ne_zero_of_lt hfuel)
  match items with
  | [] => exact absurd rfl hitems
  | item :: items =>
    obtain ⟨s, others, hs, hothers, rfl⟩ := writtenItems?_cons_eq_some hss
    by_cases hmore : items = []
    · obtain rfl : others = [] := by
        rw [hmore] at hothers
        exact (Option.some.inj hothers).symm
      rw [hmore, indentedItems, indentedItems, joined_singleton] at hfuel ⊢
      exact readItems_last hlead hbelow (readValue_indentedAt hs level hrest (by omega))
    · have hlength := length_newline level
      rw [joined_indentedItems level item hmore] at hfuel ⊢
      simp only [List.length_append, List.length_cons] at hfuel
      simp only [List.cons_append, List.append_assoc]
      have hread (more : List Char) : readValue fuel ((indentedAt level item).toList ++ ',' :: more) =
          some (s, ',' :: more) := readValue_indentedAt hs level ⟨',', more, rfl, .inl rfl⟩ (by omega)
      have hitems : readItems fuel (s :: acc) ((newline level).toList ++
          (joined level (indentedItems level items) ++ (below ++ ']' :: rest))) =
          some (.array ((s :: acc).reverse ++ others), rest) :=
        readItems_indented hmore hothers level (spaces_newline level) hbelow hrest (by omega)
      rw [List.reverse_cons, List.append_assoc] at hitems
      exact readItems_more hlead (hread _) hitems

theorem readFields_indented {fields : List (String × Json)} (hfields : fields ≠ [])
    {ss : List (Option String × Syntax)} (hss : writtenFields? fields = some ss) (level : Nat) {fuel : Nat}
    {acc : List (Option String × Syntax)} {lead below rest : List Char} (hlead : Spaces lead)
    (hbelow : Spaces below) (hrest : Follows (below ++ '\x7d' :: rest))
    (hfuel : 2 * (joined level (indentedFields level fields)).length + 1 < fuel) :
    readFields fuel acc
        (lead ++ (joined level (indentedFields level fields) ++ (below ++ '\x7d' :: rest))) =
      some (.object (acc.reverse ++ ss), rest) := by
  obtain ⟨fuel, rfl⟩ := Nat.exists_eq_add_one_of_ne_zero (Nat.ne_zero_of_lt hfuel)
  match fields with
  | [] => exact absurd rfl hfields
  | (key, value) :: fields =>
    obtain ⟨s, others, hs, hothers, rfl⟩ := writtenFields?_cons_eq_some hss
    by_cases hmore : fields = []
    · obtain rfl : others = [] := by
        rw [hmore] at hothers
        exact (Option.some.inj hothers).symm
      rw [hmore, indentedFields, indentedFields, joined_singleton, toList_indentedField] at hfuel ⊢
      simp only [List.length_append] at hfuel
      rw [List.append_assoc]
      exact readFields_last hlead hbelow (readValue_indentedAt hs level hrest (by omega))
    · have hlength := length_newline level
      rw [joined_indentedFields level key value hmore] at hfuel ⊢
      simp only [List.length_append, List.length_cons] at hfuel
      simp only [List.cons_append, List.append_assoc]
      have hread (more : List Char) : readValue fuel ((indentedAt level value).toList ++ ',' :: more) =
          some (s, ',' :: more) := readValue_indentedAt hs level ⟨',', more, rfl, .inl rfl⟩ (by omega)
      have hfields : readFields fuel ((some key, s) :: acc) ((newline level).toList ++
          (joined level (indentedFields level fields) ++ (below ++ '\x7d' :: rest))) =
          some (.object (((some key, s) :: acc).reverse ++ others), rest) :=
        readFields_indented hmore hothers level (spaces_newline level) hbelow hrest (by omega)
      rw [List.reverse_cons, List.append_assoc] at hfields
      exact readFields_more hlead (hread _) hfields

end

theorem ofText?_indented {value : Json} {s : Syntax} (hs : value.written? = some s) :
    Syntax.ofText? (value.indented ++ "\n") = some s := by
  have htext : (value.indented ++ "\n").toList = (indentedAt 0 value).toList ++ ['\n'] :=
    String.toList_append
  have hfollows : Follows ['\n'] := ⟨'\n', [], rfl, .inr rfl⟩
  have hread {fuel : Nat} (hfuel : 2 * (indentedAt 0 value).toList.length < fuel) :
      readValue fuel ((indentedAt 0 value).toList ++ ['\n']) = some (s, ['\n']) :=
    readValue_indentedAt hs 0 hfollows hfuel
  rw [Syntax.ofText?, htext]
  simp only [hread (show 2 * _ < 2 * ((indentedAt 0 value).toList ++ ['\n']).length + 2 by
    rw [List.length_append]
    omega)]
  rfl

end Syntax

end PolicyCheck.Json
