import PolicyCheck.Command.Usage
import PolicyCheck.Text.Pieces

/-!
# Options

A command line is read word by word against a list of options. An option has a long name and may
have a short one of a single letter; short ones may share a word. Its value stands in the same word,
after `=` or directly behind the letter, or is the next word, unless that looks like an option. After
the word `--` no word is an option. A value is judged when the next option or free word comes, so that
of two faults the earlier one is found, except that a word which is no option at all is found at once.
-/

namespace PolicyCheck.Command

inductive Kind where
  | flag
  | count
  /-- It has one value and may be given once. -/
  | single
  /-- It has one value and may be given again. -/
  | many
  /-- It ends the reading. -/
  | ends (usage : Usage)
deriving DecidableEq, Repr

/-- An option, or the free words of a command. Values are judged by `check`. -/
structure OptionSpec where
  name : String
  letter? : Option Char := none
  kind : Kind := .single
  check : String → Option Usage := fun _ => none

structure Specs where
  options : List OptionSpec
  free? : Option OptionSpec := none
  commands : List String := []

structure Given where
  values : List (String × String) := []
  /-- The option whose values have not been judged yet, with those values. -/
  pending? : Option (OptionSpec × List String) := none
  /-- Whether no further word is an option. -/
  escaped : Bool := false

namespace Given

def all (g : Given) (name : String) : List String :=
  (g.values.filter (·.1 == name)).map Prod.snd

def get? (g : Given) (name : String) : Option String := (g.all name).head?

def has (g : Given) (name : String) : Bool := g.values.any (·.1 == name)

def add (g : Given) (o : OptionSpec) (values : List String) : Except Usage Given := do
  if values.isEmpty then throw .valueMissing
  if o.kind ∈ [.flag, .single] ∧ g.has o.name then throw .repeated
  match values.findSome? o.check with
  | some usage => throw usage
  | none => return { g with values := g.values ++ values.map fun value => (o.name, value) }

def settle (g : Given) : Except Usage Given :=
  match g.pending? with
  | none => .ok g
  | some (o, values) => { g with pending? := none }.add o values

/-- Adds an option with a value, after the pending one. -/
def put (g : Given) (o : OptionSpec) (value : String) : Except Usage Given := do
  (← g.settle).add o [value]

def awaits (g : Given) : Bool :=
  match g.pending? with
  | some (_, values) => values.isEmpty
  | none => false

/-- Gives an option that may take its value from the next word. -/
def give (g : Given) (o : OptionSpec) : Except Usage Given :=
  match o.kind with
  | .flag | .count => g.put o "true"
  | .single | .many => do return { ← g.settle with pending? := some (o, []) }
  | .ends usage => do
    let _ ← g.settle
    throw usage

def letters (options : List OptionSpec) (g : Given) : List Char → Except Usage Given
  | [] => .ok g
  | c :: rest =>
    match options.find? (·.letter? == some c) with
    | none => .error .unexpectedWord
    | some o =>
      if o.kind = .single ∨ o.kind = .many then
        match rest with
        | [] => g.give o
        | '=' :: value => g.put o (String.ofList value)
        | value => g.put o (String.ofList value)
      else do letters options (← g.give o) rest

def long (options : List OptionSpec) (g : Given) (cs : List Char) : Except Usage Given :=
  let name := String.ofList (cs.takeWhile (· ≠ '='))
  match options.find? (·.name == name), cs.dropWhile (· ≠ '=') with
  | none, _ => .error .unexpectedWord
  | some o, [] => g.give o
  | some o, _ :: value =>
    if o.kind = .single ∨ o.kind = .many then g.put o (String.ofList value)
    else .error .valueUnneeded

def word (specs : Specs) (g : Given) (text : String) : Except Usage Given :=
  match specs.free? with
  | some o =>
    match g.pending? with
    | some (p, values) =>
      if p.name == o.name then .ok { g with pending? := some (o, values ++ [text]) }
      else do return { ← g.settle with pending? := some (o, [text]) }
    | none => .ok { g with pending? := some (o, [text]) }
  | none =>
    if specs.commands.isEmpty then .error .unexpectedWord
    else if g.escaped ∧ text ∈ specs.commands then .error .unexpectedWord
    else .error .commandUnknown

/-- Reads words up to the name of a command, if one may follow: what was given, and the command with
the words after it. -/
def read (specs : Specs) (g : Given) : List String → Except Usage (Given × Option (String × List String))
  | [] => .ok (g, none)
  | text :: rest =>
    if g.escaped then do read specs (← g.word specs text) rest
    else if ¬g.awaits ∧ text ∈ specs.commands then .ok (g, some (text, rest))
    else
      match text.toList with
      | ['-', '-'] => read specs { g with escaped := true } rest
      | '-' :: '-' :: cs => do read specs (← g.long specs.options cs) rest
      | '-' :: c :: cs => do read specs (← g.letters specs.options (c :: cs)) rest
      | _ =>
        match g.pending? with
        | some (o, []) => read specs { g with pending? := some (o, [text]) } rest
        | _ => do read specs (← g.word specs text) rest

end Given

end PolicyCheck.Command
