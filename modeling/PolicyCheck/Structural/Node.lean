import PolicyCheck.Error
import PolicyCheck.Number.Shortest

/-!
# Compiled structural policies

A definition is compiled to a tree of checks, each with the full path of the value it is about. A
scalar asks for an equal value, the empty value for a missing or falsy one, and sequences and
mappings ask for everything in them. Each value visited while compiling is noted in a trace. `walk`
compiles with its place kept as one path, `compileAt` by recursion with the path at hand.
-/

namespace PolicyCheck.Structural

inductive Literal where
  | bool (value : Bool)
  | int (value : Int)
  | double (value : Double)
  | string (value : String)
deriving DecidableEq, Repr, Inhabited

namespace Literal

def text : Literal → String
  | .bool b => if b then "true" else "false"
  | .int n => toString n
  | .double d => d.plain
  | .string s => s

def ofNumber (n : Number) : Literal :=
  match n.int64? with
  | some value => .int value
  | none => .double n.toDouble

end Literal

inductive Node where
  | literal (path : Path) (value : Literal)
  | absent (path : Path)
  | allOf (children : List Node)
deriving Repr, Inhabited

namespace Node

mutual

def checkCount : Node → Nat
  | .literal .. | .absent _ => 1
  | .allOf children => checkCounts children

def checkCounts : List Node → Nat
  | [] => 0
  | child :: children => checkCount child + checkCounts children

end

/-! ### Compilation -/

inductive Visit where
  | absent (path : Path)
  | literal (value : Literal) (path : Path)
  | sequence (path : Path)
  | mapping (path : Path)
deriving DecidableEq, Repr

namespace Visit

def path : Visit → Path
  | .absent path | .literal _ path | .sequence path | .mapping path => path

def text (v : Visit) : String :=
  String.ofList (List.replicate v.path.length '\t') ++
    match v with
    | .absent path => s!"Absent(path={path.dotted})"
    | .literal value path => s!"Literal(value={value.text}, path={path.dotted})"
    | .sequence path => s!"AllOf(list, path={path.dotted})"
    | .mapping path => s!"AllOf(map, path={path.dotted})"

end Visit

structure Compilation (α : Type) where
  /-- The values visited, up to the first fault. -/
  trace : List Visit
  result : Except PolicyFault α

namespace Compilation

/-- Goes on with a compiled value; after a fault nothing more is visited. -/
def andThen {α β : Type} (c : Compilation α) (next : α → Compilation β) : Compilation β :=
  match c.result with
  | .ok value => ⟨c.trace ++ (next value).trace, (next value).result⟩
  | .error fault => ⟨c.trace, .error fault⟩

def visiting {α : Type} (visit : Visit) (c : Compilation α) : Compilation α :=
  { c with trace := visit :: c.trace }

def done {α : Type} (value : α) : Compilation α := ⟨[], .ok value⟩

def fail {α : Type} (fault : PolicyFault) : Compilation α := ⟨[], .error fault⟩

end Compilation

def leaf (path : Path) (value : Literal) : Compilation Node :=
  .visiting (.literal value path) (.done (.literal path value))

mutual

def compileAt (path : Path) : Definition → Compilation Node
  | .null => .visiting (.absent path) (.done (.absent path))
  | .bool value => leaf path (.bool value)
  | .number n => leaf path (.ofNumber n)
  | .string value => leaf path (.string value)
  | .sequence items =>
    .visiting (.sequence path) ((compileItems path 0 items).andThen fun nodes => .done (.allOf nodes))
  | .mapping entries =>
    .visiting (.mapping path) ((compileEntries path entries).andThen fun nodes => .done (.allOf nodes))
  | .tagged tag _ => .fail (.taggedValue tag path)

def compileItems (path : Path) (position : Nat) : List Definition → Compilation (List Node)
  | [] => .done []
  | item :: items =>
    (compileAt (path ++ [.index position]) item).andThen fun node =>
      (compileItems path (position + 1) items).andThen fun nodes => .done (node :: nodes)

/-- Compiles the entries of a mapping; each key is looked at before its value. -/
def compileEntries (path : Path) : List (Definition × Definition) → Compilation (List Node)
  | [] => .done []
  | (key, value) :: entries =>
    match key with
    | .string name =>
      (compileAt (path ++ [.key name]) value).andThen fun node =>
        (compileEntries path entries).andThen fun nodes => .done (node :: nodes)
    | key => .fail (.keyNotString key path)

end

/-! ### The walk -/

/-- Goes on with a compiled value on a walk; after a fault nothing more is visited. -/
def Compilation.andWalk {α β : Type} (c : Compilation α) (next : α → StateM Path (Compilation β)) :
    StateM Path (Compilation β) := do
  match c.result with
  | .ok value =>
    let rest ← next value
    return ⟨c.trace ++ rest.trace, rest.result⟩
  | .error fault => return ⟨c.trace, .error fault⟩

mutual

def walk : Definition → StateM Path (Compilation Node)
  | .null => return .visiting (.absent (← get)) (.done (.absent (← get)))
  | .bool value => return leaf (← get) (.bool value)
  | .number n => return leaf (← get) (.ofNumber n)
  | .string value => return leaf (← get) (.string value)
  | .sequence items =>
    return .visiting (.sequence (← get)) ((← walkItems 0 items).andThen fun nodes => .done (.allOf nodes))
  | .mapping entries =>
    return .visiting (.mapping (← get)) ((← walkEntries entries).andThen fun nodes => .done (.allOf nodes))
  | .tagged tag _ => return .fail (.taggedValue tag (← get))

/-- Compiles the items of the sequence at the current path, from a position on. -/
def walkItems (position : Nat) : List Definition → StateM Path (Compilation (List Node))
  | [] => return .done []
  | item :: items => do
    (← Path.within (.index position) (walk item)).andWalk fun node =>
      return (← walkItems (position + 1) items).andThen fun nodes => .done (node :: nodes)

/-- Compiles the entries of the mapping at the current path; each key is looked at before its value. -/
def walkEntries : List (Definition × Definition) → StateM Path (Compilation (List Node))
  | [] => return .done []
  | (key, value) :: entries =>
    match key with
    | .string name => do
      (← Path.within (.key name) (walk value)).andWalk fun node =>
        return (← walkEntries entries).andThen fun nodes => .done (node :: nodes)
    | key => return .fail (.keyNotString key (← get))

end

def compilation (definition : Definition) : Compilation Node := ((walk definition).run []).1

def compile (definition : Definition) : Except PolicyFault Node := (compilation definition).result

end Node

end PolicyCheck.Structural
