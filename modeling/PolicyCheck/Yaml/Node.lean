import PolicyCheck.Yaml.Token

/-!
# Nodes

The tree of a document: scalars, sequences and mappings, each with its properties, and references to
anchored nodes. In the text anchors have names; the type of names is left open, so that they can be
replaced by others. `Node.ofTokens?` accepts one document and nothing else; a text without any
document has no node.
-/

namespace PolicyCheck.Yaml

structure Properties (α : Type) where
  anchor? : Option α := none
  tag? : Option Text.Octets := none
deriving DecidableEq, Repr, Inhabited

inductive Node (α : Type) where
  | reference (name : α)
  | scalar (properties : Properties α) (style : Style) (text : String)
  | sequence (properties : Properties α) (items : List (Node α))
  | mapping (properties : Properties α) (entries : List (Node α × Node α))
deriving Repr, Inhabited

abbrev WrittenNode := Node (List Char)

namespace Node

/-- The node of a value that is left out. -/
def empty : WrittenNode := .scalar {} .plain ""

abbrev Handles := List (List Char × Text.Octets)

/-- The handles that are known without a directive. -/
def knownHandles : Handles :=
  [(['!'], Text.Utf8.encode ['!']), (['!', '!'], Text.Utf8.encode "tag:yaml.org,2002:".toList)]

/-- The octets before the first NUL. -/
def beforeNul (octets : Text.Octets) : Text.Octets := octets.takeWhile (· ≠ 0)

def fullTag? (handles : Handles) (handle : List Char) (suffix : Text.Octets) : Option Text.Octets :=
  if handle.isEmpty then some (beforeNul suffix)
  else (handles.lookup handle).map fun expansion => beforeNul expansion ++ beforeNul suffix

/-- Reads the properties of a node: an anchor and a tag in either order. -/
def readProperties (handles : Handles) : List Token → Option (Properties (List Char) × List Token)
  | .anchor name :: .tag handle suffix :: rest | .tag handle suffix :: .anchor name :: rest =>
    (fullTag? handles handle suffix).map fun tag => (⟨some name, some tag⟩, rest)
  | .anchor name :: rest => some (⟨some name, none⟩, rest)
  | .tag handle suffix :: rest =>
    (fullTag? handles handle suffix).map fun tag => (⟨none, some tag⟩, rest)
  | rest => some ({}, rest)

/-- The properties of a scalar. The tag `!` alone says no more than that there is a scalar. -/
def scalarProperties (properties : Properties (List Char)) : Properties (List Char) :=
  if properties.tag? = some (Text.Utf8.encode ['!']) then { properties with tag? := none }
  else properties

/-- Whether the value of an item or entry is left out in front of these tokens. -/
def isLeftOut (stops : List Token) : List Token → Bool
  | [] => false
  | token :: _ => token ∈ stops

mutual

/-- Reads a node. Block collections may start only where `block` allows it, and a sequence that is
not indented only as the value of a block mapping. -/
def read (handles : Handles) : Nat → (block unindented : Bool) → List Token →
    Option (WrittenNode × List Token)
  | 0, _, _, _ => none
  | _ + 1, _, _, .reference name :: rest => some (.reference name, rest)
  | limit + 1, block, unindented, tokens => do
    let (properties, tokens) ← readProperties handles tokens
    match tokens with
    | .scalar style text :: rest => some (.scalar (scalarProperties properties) style text, rest)
    | .openSequence :: rest =>
      let (items, rest) ← readFlowItems handles limit true [] rest
      some (.sequence properties items, rest)
    | .openMapping :: rest =>
      let (entries, rest) ← readFlowEntries handles limit true [] rest
      some (.mapping properties entries, rest)
    | tokens =>
      match tokens, block, unindented with
      | .blockEntry :: _, _, true =>
        let (items, rest) ← readUnindentedItems handles limit [] tokens
        some (.sequence properties items, rest)
      | .blockSequence :: rest, true, _ =>
        let (items, rest) ← readBlockItems handles limit [] rest
        some (.sequence properties items, rest)
      | .blockMapping :: rest, true, _ =>
        let (entries, rest) ← readBlockEntries handles limit [] rest
        some (.mapping properties entries, rest)
      | _, _, _ =>
        if properties = {} then none else some (.scalar properties .plain "", tokens)

/-- Reads a node unless it is left out. -/
def readUnlessLeftOut (handles : Handles) : Nat → (stops : List Token) →
    (block unindented : Bool) → List Token → Option (WrittenNode × List Token)
  | 0, _, _, _, _ => none
  | limit + 1, stops, block, unindented, tokens =>
    if isLeftOut stops tokens then some (empty, tokens)
    else read handles limit block unindented tokens

def readBlockItems (handles : Handles) : Nat → List WrittenNode → List Token →
    Option (List WrittenNode × List Token)
  | 0, _, _ => none
  | limit + 1, reversed, .blockEntry :: rest => do
    let (item, rest) ← readUnlessLeftOut handles limit [.blockEntry, .blockEnd] true false rest
    readBlockItems handles limit (item :: reversed) rest
  | _ + 1, reversed, .blockEnd :: rest => some (reversed.reverse, rest)
  | _ + 1, _, _ => none

def readUnindentedItems (handles : Handles) : Nat → List WrittenNode → List Token →
    Option (List WrittenNode × List Token)
  | 0, _, _ => none
  | limit + 1, reversed, .blockEntry :: rest => do
    let (item, rest) ←
      readUnlessLeftOut handles limit [.blockEntry, .key, .value, .blockEnd] true false rest
    readUnindentedItems handles limit (item :: reversed) rest
  | _ + 1, reversed, rest => some (reversed.reverse, rest)

def readBlockEntries (handles : Handles) : Nat → List (WrittenNode × WrittenNode) → List Token →
    Option (List (WrittenNode × WrittenNode) × List Token)
  | 0, _, _ => none
  | limit + 1, reversed, .key :: rest => do
    let (key, rest) ← readUnlessLeftOut handles limit [.key, .value, .blockEnd] true true rest
    let (value, rest) ← readBlockValue handles limit rest
    readBlockEntries handles limit ((key, value) :: reversed) rest
  | _ + 1, reversed, .blockEnd :: rest => some (reversed.reverse, rest)
  | _ + 1, _, _ => none

def readBlockValue (handles : Handles) : Nat → List Token → Option (WrittenNode × List Token)
  | 0, _ => none
  | limit + 1, .value :: rest =>
    readUnlessLeftOut handles limit [.key, .value, .blockEnd] true true rest
  | _ + 1, rest => some (empty, rest)

/-- Reads the items of a sequence in brackets to its end. An item with the mark of a key is a
mapping with one entry. -/
def readFlowItems (handles : Handles) : Nat → (first : Bool) → List WrittenNode → List Token →
    Option (List WrittenNode × List Token)
  | 0, _, _, _ => none
  | _ + 1, _, reversed, .closeSequence :: rest => some (reversed.reverse, rest)
  | limit + 1, first, reversed, tokens => do
    let tokens ← match first, tokens with
      | true, tokens => some tokens
      | false, .flowEntry :: rest => some rest
      | false, _ => none
    match tokens with
    | .closeSequence :: rest =>
      if first then none else some (reversed.reverse, rest)
    | .key :: rest =>
      let (entry, rest) ← readFlowPair handles limit rest
      readFlowItems handles limit false (.mapping {} [entry] :: reversed) rest
    | tokens =>
      let (item, rest) ← read handles limit false false tokens
      readFlowItems handles limit false (item :: reversed) rest

/-- Reads the entry of a mapping that is an item of a sequence in brackets. A key that is left out
takes the token after it along. -/
def readFlowPair (handles : Handles) : Nat → List Token → Option ((WrittenNode × WrittenNode) × List Token)
  | 0, _ => none
  | limit + 1, tokens => do
    let (key, rest) ←
      if isLeftOut [.value, .flowEntry, .closeSequence] tokens then some (empty, tokens.tail)
      else read handles limit false false tokens
    match rest with
    | .value :: rest =>
      let (value, rest) ←
        readUnlessLeftOut handles limit [.flowEntry, .closeSequence] false false rest
      some ((key, value), rest)
    | rest => some ((key, empty), rest)

def readFlowEntries (handles : Handles) : Nat → (first : Bool) → List (WrittenNode × WrittenNode) →
    List Token → Option (List (WrittenNode × WrittenNode) × List Token)
  | 0, _, _, _ => none
  | _ + 1, _, reversed, .closeMapping :: rest => some (reversed.reverse, rest)
  | limit + 1, first, reversed, tokens => do
    let tokens ← match first, tokens with
      | true, tokens => some tokens
      | false, .flowEntry :: rest => some rest
      | false, _ => none
    match tokens with
    | .closeMapping :: rest =>
      if first then none else some (reversed.reverse, rest)
    | .key :: rest =>
      let (key, rest) ←
        readUnlessLeftOut handles limit [.value, .flowEntry, .closeMapping] false false rest
      let (value, rest) ← readFlowValue handles limit rest
      readFlowEntries handles limit false ((key, value) :: reversed) rest
    | tokens =>
      let (key, rest) ← read handles limit false false tokens
      readFlowEntries handles limit false ((key, empty) :: reversed) rest

def readFlowValue (handles : Handles) : Nat → List Token → Option (WrittenNode × List Token)
  | 0, _ => none
  | limit + 1, .value :: rest =>
    readUnlessLeftOut handles limit [.flowEntry, .closeMapping] false false rest
  | _ + 1, rest => some (empty, rest)

end

/-! ### Documents -/

/-- Reads the directives in front of a document: one version of YAML at most, and handles that
differ. -/
def readDirectives (version : Bool) (handles : Handles) : List Token → Option (Handles × List Token)
  | .version major minor :: rest =>
    if version ∨ major ≠ 1 ∨ (minor ≠ 1 ∧ minor ≠ 2) then none else readDirectives true handles rest
  | .handle name expansion :: rest =>
    if (handles.lookup name).isSome then none
    else readDirectives version (handles ++ [(name, expansion)]) rest
  | rest => some (handles, rest)

def startsBare : List Token → Bool
  | .version .. :: _ | .handle .. :: _ | .documentStart :: _ => false
  | _ => true

/-- Whether the content of a document is left out after its marker. -/
def isBare : List Token → Bool
  | [] | .version .. :: _ | .handle .. :: _ | .documentStart :: _ | .documentEnd :: _ => true
  | _ => false

def ofTokens? (tokens : List Token) : Option (Option WrittenNode) :=
  if tokens.isEmpty then some none
  else do
    let limit := 3 * tokens.length + 3
    let (node, rest) ←
      if startsBare tokens then read knownHandles limit true false tokens
      else do
        let (handles, rest) ← readDirectives false [] tokens
        match rest with
        | .documentStart :: rest =>
          if isBare rest then some (empty, rest)
          else read (handles ++ knownHandles) limit true false rest
        | _ => none
    if rest.all fun token => token = .documentEnd then some (some node) else none

end Node

end PolicyCheck.Yaml
