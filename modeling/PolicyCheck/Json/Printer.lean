import PolicyCheck.Json.Basic
import PolicyCheck.Number.Shortest

/-!
# Writing JSON

A value is written compactly, without any space, or indented by two spaces a level. Both write the
fields of an object in the order in which they are held.
-/

namespace PolicyCheck.Json

/-- The written form of a character inside a string: quotes, backslashes and control characters
below U+0020 are escaped. -/
def escapeChar (c : Char) : List Char :=
  match c with
  | '"' => ['\\', '"']
  | '\\' => ['\\', '\\']
  | '\x08' => ['\\', 'b']
  | '\x0c' => ['\\', 'f']
  | '\n' => ['\\', 'n']
  | '\r' => ['\\', 'r']
  | '\t' => ['\\', 't']
  | c => if c.toNat < 0x20 then
      ['\\', 'u', '0', '0', Text.hexDigit (c.toNat / 16), Text.hexDigit (c.toNat % 16)]
    else [c]

def quoted (text : String) : String :=
  "\"" ++ String.ofList (text.toList.flatMap escapeChar) ++ "\""

def numberText : Number → String
  | .int n => toString n
  | .double d => d.json

mutual

def compact : Json → String
  | .null => "null"
  | .bool value => if value then "true" else "false"
  | .number n => numberText n
  | .string text => quoted text
  | .array items => "[" ++ ",".intercalate (compactItems items) ++ "]"
  | .object fields => "\x7b" ++ ",".intercalate (compactFields fields) ++ "\x7d"

def compactItems : List Json → List String
  | [] => []
  | item :: items => compact item :: compactItems items

def compactFields : List (String × Json) → List String
  | [] => []
  | (key, value) :: fields => (quoted key ++ ":" ++ compact value) :: compactFields fields

end

def newline (level : Nat) : String := "\n" ++ String.ofList (List.replicate (2 * level) ' ')

def indentedParts (opening closing : String) (level : Nat) (parts : List String) : String :=
  if parts.isEmpty then opening ++ closing
  else
    opening ++ newline (level + 1) ++ ("," ++ newline (level + 1)).intercalate parts ++
      newline level ++ closing

mutual

def indentedAt : Nat → Json → String
  | level, .array items => indentedParts "[" "]" level (indentedItems (level + 1) items)
  | level, .object fields =>
    indentedParts "\x7b" "\x7d" level (indentedFields (level + 1) fields)
  | _, value => compact value

def indentedItems : Nat → List Json → List String
  | _, [] => []
  | level, item :: items => indentedAt level item :: indentedItems level items

def indentedFields : Nat → List (String × Json) → List String
  | _, [] => []
  | level, (key, value) :: fields =>
    (quoted key ++ ": " ++ indentedAt level value) :: indentedFields level fields

end

def indented (value : Json) : String := indentedAt 0 value

end PolicyCheck.Json
