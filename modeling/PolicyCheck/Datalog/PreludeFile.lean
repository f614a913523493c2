/-!
# The prelude of every program

Two files precede each program. The first declares the type `Value` of tagged values, the second the
relation of document facts and the relations that rebuild the path of a leaf from its wrappers: a
walk peels one constructor at a time and keeps the path below, a leaf is where nothing is left to
peel, and the path of a leaf drops the point that a field would put in front.
-/

namespace PolicyCheck.Datalog

structure PreludeFile where
  name : String
  lines : List String
deriving DecidableEq, Repr

namespace PreludeFile

def text (f : PreludeFile) : String := String.join (f.lines.map (· ++ "\n"))

def values : PreludeFile where
  name := "value.dl"
  lines := [
    "// Tagged values shared by the schema pivots and the JSON fact encoder.",
    "// Constructor names and arity must match the Rust side exactly.",
    ".type Value = Int \x7b i: number \x7d",
    "            | Float \x7b f: float \x7d",
    "            | String \x7b s: symbol \x7d",
    "            | Bool \x7b b: number \x7d",
    "            | Null \x7b\x7d",
    "            | Object \x7b k: symbol, v: Value \x7d",
    "            | Array \x7b i: number, v: Value \x7d"]

def documents : PreludeFile where
  name := "json.dl"
  lines := [
    "// Attestation documents, one fact per scalar leaf.",
    "// The outermost constructor of a leaf is the step closest to the leaf.",
    ".decl json(name: symbol, id: number, leaf: Value)",
    "",
    "// Peel wrappers from the outside in, prepending each step to the suffix.",
    ".decl json_walk(name: symbol, id: number, rest: Value, suffix: symbol)",
    "json_walk(name, id, leaf, \"\") :- json(name, id, leaf).",
    "json_walk(name, id, inner, cat(\".\", cat(key, suffix))) :-",
    "    json_walk(name, id, $Object(key, inner), suffix).",
    "json_walk(name, id, inner, cat(\"[\", cat(to_string(index), cat(\"]\", suffix)))) :-",
    "    json_walk(name, id, $Array(index, inner), suffix).",
    "",
    ".decl json_leaf(name: symbol, id: number, value: Value, suffix: symbol)",
    "json_leaf(name, id, $Int(x), suffix) :- json_walk(name, id, $Int(x), suffix).",
    "json_leaf(name, id, $Float(x), suffix) :- json_walk(name, id, $Float(x), suffix).",
    "json_leaf(name, id, $String(x), suffix) :- json_walk(name, id, $String(x), suffix).",
    "json_leaf(name, id, $Bool(x), suffix) :- json_walk(name, id, $Bool(x), suffix).",
    "json_leaf(name, id, $Null, suffix) :- json_walk(name, id, $Null, suffix).",
    "",
    "// Dotted/bracketed path of every leaf, e.g. \"a[1].b\".",
    ".decl json_path(name: symbol, id: number, path: symbol, value: Value)",
    "json_path(name, id, substr(suffix, 1, strlen(suffix) - 1), value) :-",
    "    json_leaf(name, id, value, suffix),",
    "    match(\"[.].*\", suffix).",
    "json_path(name, id, suffix, value) :-",
    "    json_leaf(name, id, value, suffix),",
    "    !match(\"[.].*\", suffix).",
    "",
    "// Keys and indices appearing at any depth, with the path below them.",
    ".decl json_object_key(name: symbol, id: number, key: symbol, suffix: symbol)",
    "json_object_key(name, id, key, suffix) :- json_walk(name, id, $Object(key, _), suffix).",
    "",
    ".decl json_array_index(name: symbol, id: number, index: number, suffix: symbol)",
    "json_array_index(name, id, index, suffix) :- json_walk(name, id, $Array(index, _), suffix)."]

def all : List PreludeFile := [values, documents]

end PreludeFile

end PolicyCheck.Datalog
