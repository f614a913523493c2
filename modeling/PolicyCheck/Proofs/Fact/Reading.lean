import PolicyCheck.Proofs.Fact.Leaf
import PolicyCheck.Proofs.Text.Pieces

/-!
# Reading facts

The grammar of fact statements, as a relation between lines and statements. A text between double quotes
holds neither a double quote nor a line break, so that it ends at the next quote, and a numeral ends at
the first character that cannot belong to one; hence no literal is the start of another, and a line has
one reading at most. The statement about a leaf of a document has one.
-/

namespace PolicyCheck.Fact

/-- Whether a text can stand between double quotes on one line. -/
def Quotable (text : String) : Prop := '"' ∉ text.toList ∧ '\n' ∉ text.toList

theorem quotable_escape (text : String) : Quotable (escape text) :=
  ⟨not_mem_escape (.inr rfl) text, not_mem_escape (.inl rfl) text⟩

theorem escape_of_quotable {text : String} (h : Quotable text) : escape text = text := by
  have hchars : text.toList.flatMap escapeChar = text.toList := by
    refine (List.flatMap_congr fun c hc => ?_).trans (List.flatMap_singleton' _)
    have hbreak : c ≠ '\n' := fun heq => h.2 (heq ▸ hc)
    have hquote : c ≠ '"' := fun heq => h.1 (heq ▸ hc)
    rw [escapeChar, if_neg hbreak, if_neg hquote]
  rw [escape, hchars, String.ofList_toList]

theorem escaped_of_quotable {path : Path} (h : ∀ name, Step.key name ∈ path → Quotable name) :
    path.map Step.escaped = path := by
  refine (List.map_congr_left fun step hstep => ?_).trans path.map_id
  cases step with
  | key name => exact congrArg Step.key (escape_of_quotable (h name hstep))
  | index position => rfl

namespace Term

/-- The grammar of literals: whether a text is that of a term. -/
inductive Reads : String → Term → Prop
  | int {digits : String} {n : Int} (h : Text.IsInteger digits.toList n) :
    Reads ("$Int(" ++ digits ++ ")") (.int n)
  | float {digits : String} (h : Text.IsFraction digits.toList) :
    Reads ("$Float(" ++ digits ++ ")") (.float digits)
  | string {text : String} (h : Quotable text) : Reads ("$String(\"" ++ text ++ "\")") (.string text)
  | bool (b : Bool) : Reads ("$Bool(" ++ (if b then "1" else "0") ++ ")") (.bool b)
  | null : Reads "$Null" .null
  | object {key literal : String} {inner : Term} (hkey : Quotable key) (h : Reads literal inner) :
    Reads ("$Object(\"" ++ key ++ "\", " ++ literal ++ ")") (.object key inner)
  | array {digits literal : String} {inner : Term} (hdigits : Text.Digits digits.toList)
    (h : Reads literal inner) :
    Reads ("$Array(" ++ digits ++ ", " ++ literal ++ ")")
      (.array (Text.valueOf digits.toList) inner)

def initial : Term → Char
  | .int _ => 'I'
  | .float _ => 'F'
  | .string _ => 'S'
  | .bool _ => 'B'
  | .null => 'N'
  | .object .. => 'O'
  | .array .. => 'A'

theorem Reads.toList_eq {literal : String} {t : Term} (h : Reads literal t) :
    ∃ cs, literal.toList = '$' :: t.initial :: cs := by
  cases h with
  | _ => simp [initial]

theorem Reads.initial_eq {literal literal' : String} {t t' : Term} (h : Reads literal t)
    (h' : Reads literal' t') {rest rest' : List Char}
    (heq : literal.toList ++ rest = literal'.toList ++ rest') : t.initial = t'.initial := by
  obtain ⟨cs, hcs⟩ := h.toList_eq
  obtain ⟨cs', hcs'⟩ := h'.toList_eq
  rw [hcs, hcs'] at heq
  exact (List.cons_eq_cons.1 (List.cons_eq_cons.1 heq).2).1

theorem Reads.unique {literal literal' : String} {t t' : Term} (h : Reads literal t)
    (h' : Reads literal' t') {rest rest' : List Char}
    (heq : literal.toList ++ rest = literal'.toList ++ rest') : t = t' ∧ rest = rest' := by
  -- Other constructors start with another letter. Under the same one, the first token ends where the
  -- first quote, comma or parenthesis stands that it cannot hold, and the induction takes the rest.
  have hinitial := h.initial_eq h' heq
  induction h generalizing literal' t' rest rest' with
  | @int digits n hdigits =>
    cases h' with
    | @int digits' n' hdigits' =>
      have hinside : digits.toList ++ ')' :: rest = digits'.toList ++ ')' :: rest' := by
        simpa using heq
      obtain ⟨htext, hrest⟩ := Text.append_cons_inj_of_not_mem (hdigits.not_mem rfl (by decide))
        (hdigits'.not_mem rfl (by decide)) hinside
      rw [htext] at hdigits
      exact ⟨congrArg Term.int (hdigits.unique hdigits'), hrest⟩
    | _ => simp [initial] at hinitial
  | @float digits hdigits =>
    cases h' with
    | @float digits' hdigits' =>
      have hinside : digits.toList ++ ')' :: rest = digits'.toList ++ ')' :: rest' := by
        simpa using heq
      obtain ⟨htext, hrest⟩ := Text.append_cons_inj_of_not_mem
        (hdigits.not_mem rfl (by decide) (by decide)) (hdigits'.not_mem rfl (by decide) (by decide))
        hinside
      exact ⟨congrArg Term.float (String.toList_inj.1 htext), hrest⟩
    | _ => simp [initial] at hinitial
  | @string text htext =>
    cases h' with
    | @string text' htext' =>
      have hinside : text.toList ++ '"' :: (')' :: rest) = text'.toList ++ '"' :: (')' :: rest') := by
        simpa using heq
      obtain ⟨heq_text, hrest⟩ := Text.append_cons_inj_of_not_mem htext.1 htext'.1 hinside
      exact ⟨congrArg Term.string (String.toList_inj.1 heq_text), (List.cons_inj_right _).1 hrest⟩
    | _ => simp [initial] at hinitial
  | bool b =>
    cases h' with
    | bool b' => cases b <;> cases b' <;> simp_all
    | _ => simp [initial] at hinitial
  | null =>
    cases h' with
    | null => exact ⟨rfl, by simpa using heq⟩
    | _ => simp [initial] at hinitial
  | @object key literal inner hkey hinner ih =>
    cases h' with
    | @object key' literal' inner' hkey' hinner' =>
      have hinside : key.toList ++ '"' :: (", ".toList ++ (literal.toList ++ ')' :: rest)) =
          key'.toList ++ '"' :: (", ".toList ++ (literal'.toList ++ ')' :: rest')) := by
        simpa using heq
      obtain ⟨heq_key, htail⟩ := Text.append_cons_inj_of_not_mem hkey.1 hkey'.1 hinside
      have hliteral := List.append_cancel_left htail
      obtain ⟨rfl, hrest⟩ := ih hinner' hliteral (hinner.initial_eq hinner' hliteral)
      rw [String.toList_inj.1 heq_key]
      exact ⟨rfl, (List.cons_inj_right _).1 hrest⟩
    | _ => simp [initial] at hinitial
  | @array digits literal inner hdigits hinner ih =>
    cases h' with
    | @array digits' literal' inner' hdigits' hinner' =>
      have hinside : digits.toList ++ ',' :: (' ' :: (literal.toList ++ ')' :: rest)) =
          digits'.toList ++ ',' :: (' ' :: (literal'.toList ++ ')' :: rest')) := by
        simpa using heq
      obtain ⟨heq_digits, htail⟩ := Text.append_cons_inj_of_not_mem (hdigits.not_mem rfl)
        (hdigits'.not_mem rfl) hinside
      have hliteral := (List.cons_inj_right _).1 htail
      obtain ⟨rfl, hrest⟩ := ih hinner' hliteral (hinner.initial_eq hinner' hliteral)
      rw [heq_digits]
      exact ⟨rfl, (List.cons_inj_right _).1 hrest⟩
    | _ => simp [initial] at hinitial

theorem reads_ofScalar {scalar : Json} {t : Term} (hsound : scalar.Sound)
    (h : ofScalar? scalar = some t) : Reads t.text t := by
  cases scalar with
  | null =>
    cases h
    exact .null
  | bool b =>
    cases h
    cases b with
    | false => exact .bool false
    | true => exact .bool true
  | number n =>
    cases h
    rw [ofNumber]
    split
    · exact .int (Text.isInteger_toString _)
    · cases hsound with
      | number hn => exact .float (isFraction_floatText hn.isFinite_toDouble)
  | string text =>
    cases h
    exact .string (quotable_escape text)
  | array items => cases h
  | object fields => cases h

theorem Reads.under {t : Term} (h : Reads t.text t) (step : Step) :
    Reads (t.under step).text (t.under step) := by
  cases step with
  | key name => exact .object (quotable_escape name) h
  | index position =>
    have hread := Reads.array (Text.digits_toString position) h
    rw [Text.valueOf_toString] at hread
    exact hread

theorem Reads.wrap {t : Term} (h : Reads t.text t) (path : Path) :
    Reads (t.wrap path).text (t.wrap path) := by
  induction path generalizing t with
  | nil => exact h
  | cons step path ih => exact ih (h.under step)

end Term

namespace Statement

/-- The grammar of facts: whether a line is that of a statement. -/
inductive Reads : String → Statement → Prop
  | fact {label digits literal : String} {id : Int} {t : Term} (hlabel : Quotable label)
    (hdigits : Text.IsInteger digits.toList id) (h : t.Reads literal) :
    Reads (relation ++ "(\"" ++ label ++ "\"," ++ digits ++ "," ++ literal ++ ").") ⟨label, id, t⟩

theorem Reads.unique {line line' : String} {s s' : Statement} (h : Reads line s)
    (h' : Reads line' s') (heq : line = line') : s = s' := by
  cases h with
  | @fact label digits literal id t hlabel hdigits h =>
    cases h' with
    | @fact label' digits' literal' id' t' hlabel' hdigits' h' =>
      have hinside :
          label.toList ++ '"' :: (',' :: (digits.toList ++ ',' :: (literal.toList ++ [')', '.']))) =
          label'.toList ++ '"' ::
            (',' :: (digits'.toList ++ ',' :: (literal'.toList ++ [')', '.']))) := by
        simpa [relation] using congrArg String.toList heq
      obtain ⟨heq_label, htail⟩ := Text.append_cons_inj_of_not_mem hlabel.1 hlabel'.1 hinside
      obtain ⟨heq_digits, hliteral⟩ := Text.append_cons_inj_of_not_mem (hdigits.not_mem rfl (by decide))
        (hdigits'.not_mem rfl (by decide)) ((List.cons_inj_right _).1 htail)
      obtain ⟨rfl, -⟩ := h.unique h' hliteral
      rw [heq_digits] at hdigits
      rw [String.toList_inj.1 heq_label, hdigits.unique hdigits']

/-- Whether a statement says of a leaf where it stands and what it holds. -/
def Describes (s : Statement) (label : String) (id : Int) (leaf : Path × Json) : Prop :=
  s.label = escape label ∧ s.id = id ∧ s.term.steps = (leaf.1.map Step.escaped).reverse ∧
    Term.ofScalar? leaf.2 = some s.term.core

theorem describes_of_isTermOf (label : String) (id : Int) {leaf : Path × Json} {t : Term}
    (h : IsTermOf leaf t) : Describes ⟨escape label, id, t⟩ label id leaf := by
  obtain ⟨terminal, hterminal, rfl⟩ := h
  obtain ⟨hsteps, hcore⟩ := Term.steps_core_ofScalar hterminal
  refine ⟨rfl, rfl, ?_, ?_⟩
  · rw [Term.steps_wrap, hsteps, List.append_nil]
  · rw [Term.core_wrap, hcore, hterminal]

theorem Describes.eq_iff {s s' : Statement} {label label' : String} {id id' : Int}
    {leaf leaf' : Path × Json} (h : s.Describes label id leaf) (h' : s'.Describes label' id' leaf') :
    s = s' ↔ escape label = escape label' ∧ id = id' ∧
      leaf.1.map Step.escaped = leaf'.1.map Step.escaped ∧
      Term.ofScalar? leaf.2 = Term.ofScalar? leaf'.2 := by
  obtain ⟨hlabel, hid, hsteps, hcore⟩ := h
  obtain ⟨hlabel', hid', hsteps', hcore'⟩ := h'
  rw [← hlabel, ← hlabel', ← hid, ← hid', hcore, hcore', ← List.reverse_inj, ← hsteps, ← hsteps',
    Option.some_inj]
  constructor
  · intro h
    rw [h]
    exact ⟨rfl, rfl, rfl, rfl⟩
  · intro ⟨hlabel, hid, hsteps, hcore⟩
    obtain ⟨label, id, t⟩ := s
    obtain ⟨label', id', t'⟩ := s'
    have hterm : t = t' := by
      rw [← Term.nest_steps_core t, ← Term.nest_steps_core t', hsteps, hcore]
    rw [show label = label' from hlabel, show id = id' from hid, hterm]

/-- The line about a leaf of a sound document is that of the statement it is made from. -/
theorem reads_text (label : String) (id : Int) {leaf : Path × Json} {t : Term}
    (hsound : leaf.2.Sound) (h : IsTermOf leaf t) :
    Reads (text ⟨escape label, id, t⟩) ⟨escape label, id, t⟩ := by
  obtain ⟨terminal, hterminal, rfl⟩ := h
  exact .fact (quotable_escape label) (Text.isInteger_toString id)
    ((Term.reads_ofScalar hsound hterminal).wrap leaf.1)

end Statement

theorem reads_of_mem_statements {document : Json} (hsound : document.Sound) {label : String}
    {id : Int} {s : Statement} (hs : s ∈ statements document label id) :
    Statement.Reads s.text s := by
  obtain ⟨leaf, hleaf, t, hterm, rfl⟩ := mem_statements.1 hs
  exact Statement.reads_text label id (hsound.leavesAt [] hleaf) hterm

theorem reads_lines {document : Json} (hsound : document.Sound) (label : String) (id : Int) :
    List.Forall₂ (fun leaf line => ∃ s, line = s.text ∧ Statement.Reads line s ∧
      (∀ s', Statement.Reads line s' → s' = s) ∧ s.Describes label id leaf)
      document.leaves (lines document label id) := by
  have hterms : List.Forall₂ (fun leaf t => leaf.2.Sound ∧ IsTermOf leaf t) document.leaves
      (terms [] document) :=
    (List.forall₂_and_left _ _).2 ⟨fun leaf => hsound.leavesAt [], isTermOf_terms [] document⟩
  rw [lines, statements, List.map_map, List.forall₂_map_right_iff]
  refine hterms.imp fun leaf t hparts => ?_
  obtain ⟨hleaf, ht⟩ := hparts
  have hreads := Statement.reads_text label id hleaf ht
  exact ⟨_, rfl, hreads, fun s' h => h.unique hreads rfl, Statement.describes_of_isTermOf label id ht⟩

/-- Each line about a sound document has one reading, which describes the leaf that it is about. Two
leaves have the same line if and only if they agree up to what `escape` changes. -/
theorem lines_decode {document document' : Json} (hsound : document.Sound)
    (hsound' : document'.Sound) (label label' : String) (id id' : Int) :
    List.Forall₂ (fun leaf line => ∃ s, line = s.text ∧ Statement.Reads line s ∧
      (∀ s', Statement.Reads line s' → s' = s) ∧ s.Describes label id leaf)
      document.leaves (lines document label id) ∧
    ∀ leaf line leaf' line', (leaf, line) ∈ document.leaves.zip (lines document label id) →
      (leaf', line') ∈ document'.leaves.zip (lines document' label' id') →
      (line = line' ↔ escape label = escape label' ∧ id = id' ∧
        leaf.1.map Step.escaped = leaf'.1.map Step.escaped ∧
        Term.ofScalar? leaf.2 = Term.ofScalar? leaf'.2) := by
  have hlines := reads_lines hsound label id
  refine ⟨hlines, fun leaf line leaf' line' hmem hmem' => ?_⟩
  obtain ⟨s, htext, -, hunique, hdescribes⟩ := List.forall₂_zip hlines hmem
  obtain ⟨s', htext', hreads', -, hdescribes'⟩ :=
    List.forall₂_zip (reads_lines hsound' label' id') hmem'
  rw [← hdescribes.eq_iff hdescribes']
  constructor
  · intro hline
    exact (hunique s' (hline ▸ hreads')).symm
  · intro hs
    rw [htext, htext', hs]

theorem lines_decode_quotes :
    (Json.object [("a\"", .string "$Null).\n")]).Sound ∧
    (Json.object [("a'", .string "$Null).\\n")]).Sound ∧
    lines (.object [("a\"", .string "$Null).\n")]) "p" 7 =
      lines (.object [("a'", .string "$Null).\\n")]) "p" 7 ∧
    ∃ s, lines (.object [("a\"", .string "$Null).\n")]) "p" 7 = [s.text] ∧
      (∀ s', Statement.Reads s.text s' → s' = s) ∧
      s.Describes "p" 7 ([.key "a\""], .string "$Null).\n") := by
  have hsound (key text : String) : (Json.object [(key, .string text)]).Sound :=
    .object fun field hfield => List.mem_singleton.1 hfield ▸ .string text
  obtain ⟨hlines, heq⟩ :=
    lines_decode (hsound "a\"" "$Null).\n") (hsound "a'" "$Null).\\n") "p" "p" 7 7
  refine ⟨hsound _ _, hsound _ _, ?_, ?_⟩
  · exact congrArg (fun line => [line]) ((heq _ _ _ _ List.mem_cons_self List.mem_cons_self).2
      ⟨rfl, rfl, by decide, by decide⟩)
  · obtain ⟨⟨s, htext, -, hunique, hdescribes⟩, -⟩ := List.forall₂_cons.1 hlines
    exact ⟨s, congrArg (fun line => [line]) htext, htext ▸ hunique, hdescribes⟩

end PolicyCheck.Fact
