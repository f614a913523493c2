import Mathlib.Data.Set.Basic
import PolicyCheck.Proofs.Pairs

/-!
# What rules derive

Datalog rules as data, with the text of their lines and their meaning. Equal variables stand for equal
values and `_` for any value. `derived` is what a set of rules adds in one step to given contents of
the relations, and `least` the least contents that hold given facts and to which the rules add
nothing. Only the built-in functions and conditions that the prelude and the pivots use are here; no
rule negates a relation, so that more contents never derive less.
-/

namespace PolicyCheck.Datalog

/-- A value in a tuple. Tagged values carry the name of their constructor, which starts with `$`. -/
inductive Datum where
  | number (value : Int)
  | symbol (text : String)
  | float (text : String)
  | empty (constructor : String)
  | single (constructor : String) (content : Datum)
  | pair (constructor : String) (first second : Datum)
deriving DecidableEq, Repr

abbrev Tuple := List Datum

abbrev Contents := String → Set Tuple

/-- An argument of an atom: a wildcard, a variable, a constant, a tagged value or a function call. -/
inductive Argument where
  | any
  | var (name : String)
  | symbol (text : String)
  | number (value : Nat)
  | empty (constructor : String)
  | single (constructor : String) (content : Argument)
  | pair (constructor : String) (first second : Argument)
  | cat (first second : Argument)
  | decimal (subject : Argument)
  | length (subject : Argument)
  | minus (first second : Argument)
  | slice (subject start size : Argument)
deriving DecidableEq, Repr

namespace Argument

def text : Argument → String
  | any => "_"
  | var name => name
  | symbol text => "\"" ++ text ++ "\""
  | number value => toString value
  | empty constructor => constructor
  | single constructor content => constructor ++ "(" ++ content.text ++ ")"
  | pair constructor first second => constructor ++ "(" ++ first.text ++ ", " ++ second.text ++ ")"
  | cat first second => "cat(" ++ first.text ++ ", " ++ second.text ++ ")"
  | decimal subject => "to_string(" ++ subject.text ++ ")"
  | length subject => "strlen(" ++ subject.text ++ ")"
  | minus first second => first.text ++ " - " ++ second.text
  | slice subject start size =>
    "substr(" ++ subject.text ++ ", " ++ start.text ++ ", " ++ size.text ++ ")"

/-- The value under an assignment of values to variables. A wildcard has none, and neither has a call
of a function on values of another type. -/
def value? (env : String → Datum) : Argument → Option Datum
  | any => none
  | var name => some (env name)
  | symbol text => some (.symbol text)
  | number value => some (.number value)
  | empty constructor => some (.empty constructor)
  | single constructor content => (content.value? env).map (.single constructor)
  | pair constructor first second =>
    (first.value? env).bind fun a => (second.value? env).map (.pair constructor a)
  | cat first second =>
    match first.value? env, second.value? env with
    | some (.symbol a), some (.symbol b) => some (.symbol (a ++ b))
    | _, _ => none
  | decimal subject =>
    match subject.value? env with
    | some (.number n) => some (.symbol (toString n))
    | _ => none
  | length subject =>
    match subject.value? env with
    | some (.symbol text) => some (.number text.length)
    | _ => none
  | minus first second =>
    match first.value? env, second.value? env with
    | some (.number m), some (.number n) => some (.number (m - n))
    | _, _ => none
  | slice subject start size =>
    match subject.value? env, start.value? env, size.value? env with
    | some (.symbol text), some (.number i), some (.number n) =>
      some (.symbol (String.ofList ((text.toList.drop i.toNat).take n.toNat)))
    | _, _, _ => none

/-- Whether a value fits the argument of a body atom: a wildcard fits every value, also inside a
tagged value. -/
def Matches (env : String → Datum) : Argument → Datum → Prop
  | any, _ => True
  | single constructor content, d => ∃ a, d = .single constructor a ∧ content.Matches env a
  | pair constructor first second, d =>
    ∃ a b, d = .pair constructor a b ∧ first.Matches env a ∧ second.Matches env b
  | argument, d => argument.value? env = some d

section Values

variable {env : String → Datum} {first second subject start size : Argument} {d : Datum}

@[simp] theorem value?_var (name : String) : (var name).value? env = some (env name) := rfl

@[simp] theorem value?_symbol (text : String) : (symbol text).value? env = some (.symbol text) := rfl

@[simp] theorem value?_number (n : Nat) : (number n).value? env = some (.number n) := rfl

@[simp] theorem value?_empty (constructor : String) :
    (empty constructor).value? env = some (.empty constructor) := rfl

@[simp] theorem value?_single (constructor : String) (content : Argument) :
    (single constructor content).value? env = (content.value? env).map (.single constructor) := rfl

@[simp] theorem value?_cat : (cat first second).value? env = some d ↔
    ∃ a b, first.value? env = some (.symbol a) ∧ second.value? env = some (.symbol b) ∧
      d = .symbol (a ++ b) := by
  rw [value?]
  constructor
  · intro h
    split at h
    next a b ha hb => exact ⟨a, b, ha, hb, (Option.some.inj h).symm⟩
    next => cases h
  · rintro ⟨a, b, ha, hb, rfl⟩
    rw [ha, hb]

@[simp] theorem value?_decimal : (decimal subject).value? env = some d ↔
    ∃ n, subject.value? env = some (.number n) ∧ d = .symbol (toString n) := by
  rw [value?]
  constructor
  · intro h
    split at h
    next n hn => exact ⟨n, hn, (Option.some.inj h).symm⟩
    next => cases h
  · rintro ⟨n, hn, rfl⟩
    rw [hn]

@[simp] theorem value?_length : (length subject).value? env = some d ↔
    ∃ text, subject.value? env = some (.symbol text) ∧ d = .number text.length := by
  rw [value?]
  constructor
  · intro h
    split at h
    next text htext => exact ⟨text, htext, (Option.some.inj h).symm⟩
    next => cases h
  · rintro ⟨text, htext, rfl⟩
    rw [htext]

@[simp] theorem value?_minus : (minus first second).value? env = some d ↔
    ∃ m n, first.value? env = some (.number m) ∧ second.value? env = some (.number n) ∧
      d = .number (m - n) := by
  rw [value?]
  constructor
  · intro h
    split at h
    next m n hm hn => exact ⟨m, n, hm, hn, (Option.some.inj h).symm⟩
    next => cases h
  · rintro ⟨m, n, hm, hn, rfl⟩
    rw [hm, hn]

@[simp] theorem value?_slice : (slice subject start size).value? env = some d ↔
    ∃ text i n, subject.value? env = some (.symbol text) ∧ start.value? env = some (.number i) ∧
      size.value? env = some (.number n) ∧
      d = .symbol (String.ofList ((text.toList.drop i.toNat).take n.toNat)) := by
  rw [value?]
  constructor
  · intro h
    split at h
    next text i n htext hi hn => exact ⟨text, i, n, htext, hi, hn, (Option.some.inj h).symm⟩
    next => cases h
  · rintro ⟨text, i, n, htext, hi, hn, rfl⟩
    rw [htext, hi, hn]

@[simp] theorem matches_any : Matches env any d := trivial

@[simp] theorem matches_var (name : String) : Matches env (var name) d ↔ env name = d :=
  Option.some_inj

@[simp] theorem matches_empty (constructor : String) :
    Matches env (empty constructor) d ↔ .empty constructor = d :=
  Option.some_inj

@[simp] theorem matches_single (constructor : String) (content : Argument) :
    Matches env (single constructor content) d ↔
      ∃ a, d = .single constructor a ∧ content.Matches env a := Iff.rfl

@[simp] theorem matches_pair (constructor : String) :
    Matches env (pair constructor first second) d ↔
      ∃ a b, d = .pair constructor a b ∧ first.Matches env a ∧ second.Matches env b := Iff.rfl

end Values

end Argument

structure Atom where
  relation : String
  arguments : List Argument
deriving DecidableEq, Repr

def Atom.text (a : Atom) : String :=
  a.relation ++ "(" ++ ", ".intercalate (a.arguments.map Argument.text) ++ ")"

/-- A condition of a rule. Of regular expressions the prelude only uses the one for a text that starts
with a point. -/
inductive Literal where
  | atom (atom : Atom)
  | differs (left right : Argument)
  | pointed (subject : Argument)
  | unpointed (subject : Argument)
deriving DecidableEq, Repr

def startsWithPoint (text : String) : Prop := text.toList.head? = some '.'

instance (text : String) : Decidable (startsWithPoint text) := inferInstanceAs (Decidable (_ = _))

namespace Literal

def text : Literal → String
  | .atom a => a.text
  | differs left right => left.text ++ " != " ++ right.text
  | pointed subject => "match(\"[.].*\", " ++ subject.text ++ ")"
  | unpointed subject => "!match(\"[.].*\", " ++ subject.text ++ ")"

-- The equations that `simp` would make for `text` are slow to find, because of the long strings.
theorem text_atom (a : Atom) : (Literal.atom a).text = a.text := rfl

theorem text_differs (left right : Argument) :
    (differs left right).text = left.text ++ " != " ++ right.text := rfl

/-- Whether the condition holds over the contents of the relations. -/
def Holds (env : String → Datum) (contents : Contents) : Literal → Prop
  | .atom a => ∃ tuple ∈ contents a.relation, List.Forall₂ (Argument.Matches env) a.arguments tuple
  | differs left right => ∃ a b, left.value? env = some a ∧ right.value? env = some b ∧ a ≠ b
  | pointed subject => ∃ text, subject.value? env = some (.symbol text) ∧ startsWithPoint text
  | unpointed subject => ∃ text, subject.value? env = some (.symbol text) ∧ ¬ startsWithPoint text

theorem Holds.mono {env : String → Datum} {contents contents' : Contents} (h : contents ≤ contents')
    {l : Literal} (hl : l.Holds env contents) : l.Holds env contents' := by
  cases l with
  | atom a =>
    obtain ⟨tuple, htuple, hmatches⟩ := hl
    exact ⟨tuple, h a.relation htuple, hmatches⟩
  | differs left right => exact hl
  | pointed subject => exact hl
  | unpointed subject => exact hl

end Literal

/-- A rule, or a fact if its body is empty. -/
structure Rule where
  head : Atom
  body : List Literal := []
deriving DecidableEq, Repr

namespace Rule

def text (r : Rule) : String :=
  if r.body = [] then r.head.text ++ "."
  else r.head.text ++ " :- " ++ ", ".intercalate (r.body.map Literal.text) ++ "."

/-- Whether the rule adds a tuple to the relation of its head. -/
def Derives (r : Rule) (contents : Contents) (tuple : Tuple) : Prop :=
  ∃ env, (∀ l ∈ r.body, l.Holds env contents) ∧
    List.Forall₂ (fun a d => Argument.value? env a = some d) r.head.arguments tuple

theorem Derives.mono {r : Rule} {contents contents' : Contents} (h : contents ≤ contents')
    {tuple : Tuple} (hr : r.Derives contents tuple) : r.Derives contents' tuple := by
  obtain ⟨env, hbody, hhead⟩ := hr
  exact ⟨env, fun l hl => (hbody l hl).mono h, hhead⟩

/-- Whether contents already hold what the rule derives from them. -/
def AddsNothing (r : Rule) (contents : Contents) : Prop :=
  ∀ tuple, r.Derives contents tuple → tuple ∈ contents r.head.relation

end Rule

/-- The tuples that rules derive from contents in one step. -/
def derived (rules : List Rule) (contents : Contents) : Contents :=
  fun relation => {tuple | ∃ r ∈ rules, r.head.relation = relation ∧ r.Derives contents tuple}

def Closed (rules : List Rule) (contents : Contents) : Prop := derived rules contents ≤ contents

/-- The least contents that hold the facts and to which the rules add nothing. -/
def least (rules : List Rule) (facts : Contents) : Contents :=
  fun relation => {tuple | ∀ contents, facts ≤ contents → Closed rules contents → tuple ∈ contents relation}

variable {rules : List Rule} {facts contents contents' : Contents}

theorem derived_mono (h : contents ≤ contents') : derived rules contents ≤ derived rules contents' := by
  intro relation tuple htuple
  obtain ⟨r, hr, hrelation, hderives⟩ := htuple
  exact ⟨r, hr, hrelation, hderives.mono h⟩

theorem closed_iff : Closed rules contents ↔ ∀ r ∈ rules, r.AddsNothing contents := by
  constructor
  · intro h r hr tuple hderives
    exact h r.head.relation ⟨r, hr, rfl, hderives⟩
  · intro h relation tuple htuple
    obtain ⟨r, hr, rfl, hderives⟩ := htuple
    exact h r hr tuple hderives

theorem facts_le_least : facts ≤ least rules facts :=
  fun relation _ htuple _ hfacts _ => hfacts relation htuple

theorem least_le (hfacts : facts ≤ contents) (hclosed : Closed rules contents) :
    least rules facts ≤ contents :=
  fun _ _ htuple => htuple contents hfacts hclosed

theorem closed_least : Closed rules (least rules facts) := by
  intro relation tuple htuple contents hfacts hclosed
  exact hclosed relation (derived_mono (least_le hfacts hclosed) relation htuple)

end PolicyCheck.Datalog
