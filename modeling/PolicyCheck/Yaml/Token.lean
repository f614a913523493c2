import PolicyCheck.Text.Utf8

/-!
# Tokens

The tokens of a YAML text. Indentation and simple keys are already told apart: a block collection
stands between a token that opens it and `blockEnd`, and every key and every value has its mark.
-/

namespace PolicyCheck.Yaml

inductive Style where
  | plain
  | quoted
  | literal
  | folded
deriving DecidableEq, Repr

inductive Token where
  | version (major minor : Nat)
  | handle (name : List Char) (expansion : Text.Octets)
  | documentStart
  | documentEnd
  | blockSequence
  | blockMapping
  | blockEnd
  | openSequence
  | closeSequence
  | openMapping
  | closeMapping
  | blockEntry
  | flowEntry
  | key
  | value
  | reference (name : List Char)
  | anchor (name : List Char)
  | tag (handle : List Char) (suffix : Text.Octets)
  | scalar (style : Style) (text : String)
deriving DecidableEq, Repr

end PolicyCheck.Yaml
