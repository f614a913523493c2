import Mathlib.Data.List.Induction
import PolicyCheck.Structural.Policy
import PolicyCheck.Proofs.Structural.Meaning

/-!
# Compiled policies and their definitions

The walk that compiles a definition keeps its place as one path, and the invariant is that it leaves the
path as it found it, also where it meets a fault. So it compiles what the recursion with the path at hand
compiles.

A tree compiled at a path holds of a document exactly when its definition holds of the value at that
path. The induction is on the definition with the path left free: one step down the definition adds
one step to the path, and looking up a longer path is looking up the step below the shorter one. What
a policy says after any number of compilations is then settled by the last definition that compiled.
-/

namespace PolicyCheck.Structural

namespace Node

theorem Compilation.andThen_eq_ok {α β : Type} {c : Compilation α} {next : α → Compilation β} {b : β} :
    (c.andThen next).result = .ok b ↔ ∃ a, c.result = .ok a ∧ (next a).result = .ok b := by
  rw [andThen]
  cases hc : c.result with
  | ok a => simp
  | error fault => simp

@[simp] theorem Compilation.result_visiting {α : Type} (visit : Visit) (c : Compilation α) :
    (c.visiting visit).result = c.result := rfl

@[simp] theorem Compilation.result_done {α : Type} (value : α) : (done value).result = .ok value := rfl

theorem Compilation.result_fail {α : Type} (fault : PolicyFault) :
    (fail fault : Compilation α).result = .error fault := rfl

theorem result_leaf (path : Path) (value : Literal) :
    (leaf path value).result = .ok (.literal path value) := rfl

theorem holds_literal (document : Json) (path : Path) (value : Literal) :
    (evaluate document (.literal path value)).holds = value.accepts (document.lookup path) := by
  rw [evaluate]
  cases value.accepts (document.lookup path) <;> rfl

theorem holds_absent (document : Json) (path : Path) :
    (evaluate document (.absent path)).holds = Json.isVacant (document.lookup path) := by
  rw [evaluate, isFalsy_eq]

theorem holds_allOf_cons (document : Json) (child : Node) (children : List Node) :
    (evaluateAll document (child :: children)).holds =
      ((evaluate document child).holds && (evaluateAll document children).holds) := by
  rw [evaluateAll]
  cases hfirst : (evaluate document child).holds <;> simp [hfirst]

theorem compileAt_sequence_eq_ok {path : Path} {items : List Definition} {node : Node} :
    (compileAt path (.sequence items)).result = .ok node ↔
      ∃ nodes, (compileItems path 0 items).result = .ok nodes ∧ .allOf nodes = node := by
  rw [compileAt, Compilation.result_visiting, Compilation.andThen_eq_ok]
  simp only [Compilation.result_done, Except.ok.injEq]

theorem compileAt_mapping_eq_ok {path : Path} {entries : List (Definition × Definition)} {node : Node} :
    (compileAt path (.mapping entries)).result = .ok node ↔
      ∃ nodes, (compileEntries path entries).result = .ok nodes ∧ .allOf nodes = node := by
  rw [compileAt, Compilation.result_visiting, Compilation.andThen_eq_ok]
  simp only [Compilation.result_done, Except.ok.injEq]

theorem compileItems_cons_eq_ok {path : Path} {position : Nat} {item : Definition}
    {items : List Definition} {nodes : List Node} :
    (compileItems path position (item :: items)).result = .ok nodes ↔
      ∃ node, (compileAt (path ++ [.index position]) item).result = .ok node ∧
        ∃ others, (compileItems path (position + 1) items).result = .ok others ∧
          node :: others = nodes := by
  rw [compileItems, Compilation.andThen_eq_ok]
  simp only [Compilation.andThen_eq_ok, Compilation.result_done, Except.ok.injEq]

theorem compileEntries_cons_eq_ok {path : Path} {key value : Definition}
    {entries : List (Definition × Definition)} {nodes : List Node} :
    (compileEntries path ((key, value) :: entries)).result = .ok nodes ↔
      ∃ name, key = .string name ∧ ∃ node, (compileAt (path ++ [.key name]) value).result = .ok node ∧
        ∃ others, (compileEntries path entries).result = .ok others ∧ node :: others = nodes := by
  cases key with
  | string name =>
    rw [compileEntries, Compilation.andThen_eq_ok]
    simp only [Compilation.andThen_eq_ok, Compilation.result_done, Except.ok.injEq,
      Definition.string.injEq, exists_eq_left']
  | null | bool | number | sequence | mapping | tagged => simp [compileEntries, Compilation.result_fail]

mutual

/-- A tree compiled at a path says of a document what its definition says of the value there. -/
theorem holds_of_compileAt (document : Json) (path : Path) (definition : Definition) (node : Node)
    (h : (compileAt path definition).result = .ok node) :
    (evaluate document node).holds = definition.holds (document.lookup path) := by
  match definition with
  | .null =>
    obtain rfl : .absent path = node := by simpa [compileAt] using h
    rw [holds_absent, Definition.holds]
  | .bool value =>
    obtain rfl : .literal path (.bool value) = node := by simpa [compileAt, result_leaf] using h
    rw [holds_literal, Definition.holds]
  | .number value =>
    obtain rfl : .literal path (.ofNumber value) = node := by simpa [compileAt, result_leaf] using h
    rw [holds_literal, Definition.holds]
  | .string value =>
    obtain rfl : .literal path (.string value) = node := by simpa [compileAt, result_leaf] using h
    rw [holds_literal, Definition.holds]
  | .sequence items =>
    obtain ⟨nodes, hnodes, rfl⟩ := compileAt_sequence_eq_ok.1 h
    rw [evaluate, Definition.holds]
    exact holds_of_compileItems document path 0 items nodes hnodes
  | .mapping entries =>
    obtain ⟨nodes, hnodes, rfl⟩ := compileAt_mapping_eq_ok.1 h
    rw [evaluate, Definition.holds]
    exact holds_of_compileEntries document path entries nodes hnodes
  | .tagged tag value => simp [compileAt, Compilation.result_fail] at h

theorem holds_of_compileItems (document : Json) (path : Path) (position : Nat)
    (items : List Definition) (nodes : List Node)
    (h : (compileItems path position items).result = .ok nodes) :
    (evaluateAll document nodes).holds =
      Definition.holdsItems position items (document.lookup path) := by
  match items with
  | [] =>
    obtain rfl : [] = nodes := by simpa [compileItems] using h
    rw [evaluateAll, Definition.holdsItems]
  | item :: items =>
    obtain ⟨node, hnode, others, hothers, rfl⟩ := compileItems_cons_eq_ok.1 h
    rw [holds_allOf_cons, Definition.holdsItems,
      holds_of_compileAt document (path ++ [.index position]) item node hnode,
      holds_of_compileItems document path (position + 1) items others hothers,
      Json.lookup_concat]
    simp only [funext (Json.step?_index position)]

theorem holds_of_compileEntries (document : Json) (path : Path)
    (entries : List (Definition × Definition)) (nodes : List Node)
    (h : (compileEntries path entries).result = .ok nodes) :
    (evaluateAll document nodes).holds =
      Definition.holdsEntries entries (document.lookup path) := by
  match entries with
  | [] =>
    obtain rfl : [] = nodes := by simpa [compileEntries] using h
    rw [evaluateAll, Definition.holdsEntries]
  | (key, value) :: entries =>
    obtain ⟨name, rfl, node, hnode, others, hothers, rfl⟩ := compileEntries_cons_eq_ok.1 h
    rw [holds_allOf_cons, Definition.holdsEntries,
      holds_of_compileAt document (path ++ [.key name]) value node hnode,
      holds_of_compileEntries document path entries others hothers,
      Json.lookup_concat]
    simp only [funext (Json.step?_key name)]

end

/-! ### The walk -/

theorem Compilation.run_andWalk {α β : Type} {c : Compilation α} {next : α → StateM Path (Compilation β)}
    {next' : α → Compilation β} {path : Path} (h : ∀ value, (next value).run path = (next' value, path)) :
    (c.andWalk next).run path = (c.andThen next', path) := by
  rw [andWalk, andThen]
  cases c.result with
  | error fault => rfl
  | ok value =>
    have hrun : (do
        let rest ← next value
        return ⟨c.trace ++ rest.trace, rest.result⟩ : StateM Path (Compilation β)).run path =
        (⟨c.trace ++ ((next value).run path).1.trace, ((next value).run path).1.result⟩,
          ((next value).run path).2) := rfl
    rw [hrun, h]

/-- A child is compiled below a step, and its siblings after it from the same path. -/
theorem run_child {α : Type} {step : Step} {path : Path} {child : StateM Path (Compilation Node)}
    {siblings : StateM Path (Compilation (List Node))} {c : Compilation Node} {cs : Compilation (List Node)}
    (hchild : child.run (path ++ [step]) = (c, path ++ [step])) (hsiblings : siblings.run path = (cs, path))
    (next : Node → List Node → Compilation α) :
    (do
      (← Path.within step child).andWalk fun node =>
        return (← siblings).andThen (next node) : StateM Path (Compilation α)).run path =
      (c.andThen fun node => cs.andThen (next node), path) := by
  have hnode (node : Node) : (do
      return (← siblings).andThen (next node) : StateM Path (Compilation α)).run path =
      (cs.andThen (next node), path) := by
    have hrun : (do
        return (← siblings).andThen (next node) : StateM Path (Compilation α)).run path =
        ((siblings.run path).1.andThen (next node), (siblings.run path).2) := rfl
    rw [hrun, hsiblings]
  have hrun : (do
      (← Path.within step child).andWalk fun node =>
        return (← siblings).andThen (next node) : StateM Path (Compilation α)).run path =
      (((Path.within step child).run path).1.andWalk fun node =>
        return (← siblings).andThen (next node)).run ((Path.within step child).run path).2 := rfl
  rw [hrun, Path.run_within hchild]
  exact Compilation.run_andWalk hnode

mutual

theorem run_walk (definition : Definition) (path : Path) :
    (walk definition).run path = (compileAt path definition, path) := by
  match definition with
  | .null | .bool _ | .number _ | .string _ | .tagged .. => rfl
  | .sequence items =>
    have hrun : (walk (.sequence items)).run path =
        (.visiting (.sequence path) (((walkItems 0 items).run path).1.andThen fun nodes => .done (.allOf nodes)),
          ((walkItems 0 items).run path).2) := rfl
    rw [hrun, run_walkItems items path 0, compileAt]
  | .mapping entries =>
    have hrun : (walk (.mapping entries)).run path =
        (.visiting (.mapping path) (((walkEntries entries).run path).1.andThen fun nodes => .done (.allOf nodes)),
          ((walkEntries entries).run path).2) := rfl
    rw [hrun, run_walkEntries entries path, compileAt]

theorem run_walkItems (items : List Definition) (path : Path) (position : Nat) :
    (walkItems position items).run path = (compileItems path position items, path) := by
  match items with
  | [] => rfl
  | item :: items =>
    exact run_child (run_walk item _) (run_walkItems items path (position + 1))
      fun node nodes => .done (node :: nodes)

theorem run_walkEntries (entries : List (Definition × Definition)) (path : Path) :
    (walkEntries entries).run path = (compileEntries path entries, path) := by
  match entries with
  | [] => rfl
  | (key, value) :: entries =>
    cases key with
    | string name =>
      exact run_child (run_walk value _) (run_walkEntries entries path) fun node nodes => .done (node :: nodes)
    | null | bool | number | sequence | mapping | tagged => rfl

end

theorem compilation_eq (definition : Definition) : compilation definition = compileAt [] definition := by
  rw [compilation, run_walk]

theorem compile_eq (definition : Definition) : compile definition = (compileAt [] definition).result := by
  rw [compile, compilation_eq]

theorem holds_of_compile {definition : Definition} {node : Node} (document : Json)
    (h : compile definition = .ok node) : node.holds document = definition.holds (some document) :=
  holds_of_compileAt document [] definition node (compile_eq definition ▸ h)

end Node

namespace Policy

def compiles (definition : Definition) : Bool := (Node.compile definition).toOption.isSome

/-- The last of the definitions that compile, if any does. -/
def lastCompiled? (definitions : List Definition) : Option Definition :=
  (definitions.filter compiles).getLast?

theorem recompile_eq_self {p : Policy} {definition : Definition} {e : Error}
    (h : p.compile definition = .error e) : p.recompile definition = p := by
  rw [recompile, h]
  rfl

theorem recompile_eq (p : Policy) (definition : Definition) :
    p.recompile definition =
      { p with root? := (Node.compile definition).toOption.or p.root? } := by
  rw [recompile, compile]
  cases Node.compile definition <;> rfl

/-- Compiling one definition after another changes the tree alone: it becomes that of the last
definition that compiles. -/
theorem foldl_recompile (p : Policy) (definitions : List Definition) :
    definitions.foldl recompile p =
      { p with root? :=
          ((lastCompiled? definitions).bind fun d => (Node.compile d).toOption).or p.root? } := by
  induction definitions using List.reverseRecOn with
  | nil => rfl
  | append_singleton definitions definition ih =>
    rw [List.foldl_append, List.foldl_cons, List.foldl_nil, ih, recompile_eq]
    cases htree : Node.compile definition with
    | ok root =>
      have hcompiles : compiles definition = true := by simp [compiles, htree, Except.toOption]
      have hlast : lastCompiled? (definitions ++ [definition]) = some definition := by
        simp [lastCompiled?, hcompiles]
      simp [hlast, htree, Except.toOption]
    | error fault =>
      have hcompiles : compiles definition = false := by simp [compiles, htree, Except.toOption]
      have hlast : lastCompiled? (definitions ++ [definition]) = lastCompiled? definitions := by
        simp [lastCompiled?, hcompiles]
      simp [hlast, Except.toOption]

theorem compiles_of_lastCompiled? {definitions : List Definition} {definition : Definition}
    (h : lastCompiled? definitions = some definition) :
    ∃ root, Node.compile definition = .ok root := by
  have hmem : definition ∈ definitions.filter compiles := List.mem_of_getLast? h
  have hcompiles : compiles definition = true := (List.mem_filter.1 hmem).2
  rw [compiles] at hcompiles
  cases htree : Node.compile definition with
  | ok root => exact ⟨root, rfl⟩
  | error fault => simp [htree, Except.toOption] at hcompiles

theorem validate_of_root {p : Policy} {root : Node} (h : p.root? = some root) (document : Json) :
    p.validate document = .ok (root.holds document) := by
  rw [validate, evaluate, h]
  rfl

theorem compile_eq_error_iff {p : Policy} {definition : Definition} {e : Error} :
    p.compile definition = .error e ↔
      ∃ fault, Node.compile definition = .error fault ∧ .invalidPolicy fault = e := by
  rw [compile]
  cases Node.compile definition <;> simp

theorem compile_eq_ok_iff {p q : Policy} {definition : Definition} :
    p.compile definition = .ok q ↔
      ∃ root, Node.compile definition = .ok root ∧ { p with root? := some root } = q := by
  rw [compile]
  cases Node.compile definition <;> simp

theorem exists_validate_eq {p q : Policy} {definition : Definition} (h : p.compile definition = .ok q) :
    ∃ root, Node.compile definition = .ok root ∧
      ∀ document, q.validate document = .ok (root.holds document) := by
  obtain ⟨root, hroot, rfl⟩ := compile_eq_ok_iff.1 h
  exact ⟨root, hroot, validate_of_root rfl⟩

/-- After any history of compilations a policy decides by the definition that was the last to
compile; until one does, it stays as it was, and without a tree it decides nothing. Nothing but the
tree ever changes, and a definition with a fault changes nothing. -/
theorem validate_foldl_recompile (p : Policy) (definitions : List Definition) (document : Json) :
    let q := definitions.foldl recompile p
    (match lastCompiled? definitions with
      | some definition => q.validate document = .ok (definition.holds (some document))
      | none => q = p ∧ (p.root? = none → q.validate document = .error (.notCompiled p.id))) ∧
    q.id = p.id ∧ q.description = p.description ∧ q.target = p.target ∧
    ∀ definition e, q.compile definition = .error e → q.recompile definition = q := by
  intro q
  have hq : q = { p with root? :=
      ((lastCompiled? definitions).bind fun d => (Node.compile d).toOption).or p.root? } :=
    foldl_recompile p definitions
  refine ⟨?_, by rw [hq], by rw [hq], by rw [hq], fun definition e he => recompile_eq_self he⟩
  cases hlast : lastCompiled? definitions with
  | some definition =>
    obtain ⟨root, hroot⟩ := compiles_of_lastCompiled? hlast
    have htree : q.root? = some root := by
      rw [hq, hlast]
      simp [hroot, Except.toOption]
    show q.validate document = _
    rw [validate_of_root htree, Node.holds_of_compile document hroot]
  | none =>
    have hsame : q = p := by
      rw [hq, hlast]
      simp
    refine ⟨hsame, fun hroot => ?_⟩
    rw [hsame, validate, evaluate, hroot]
    rfl

/-- A definition with a fault neither gives a policy its first tree nor takes one away. -/
theorem validate_beside_fault :
    let asked : Definition := .mapping [(.string "a", .sequence [.number (.int 2), .null])]
    let faulty : Definition := .tagged "x" .null
    let document : Json := .object [("a", .array [.number (.int 2), .string "", .bool true])]
    let fresh := new "p" ""
    fresh.root? = none ∧
    ([faulty].foldl recompile fresh).validate document = .error (.notCompiled "p") ∧
    ([asked, faulty].foldl recompile fresh).validate document = .ok true ∧
    ([asked].foldl recompile fresh).recompile faulty = [asked].foldl recompile fresh := by
  intro asked faulty document fresh
  refine ⟨rfl, ?_, ?_, ?_⟩
  · exact (validate_foldl_recompile fresh [faulty] document).1.2 rfl
  · exact (validate_foldl_recompile fresh [asked, faulty] document).1
  · exact (validate_foldl_recompile fresh [asked] document).2.2.2.2 faulty
      (.invalidPolicy (.taggedValue "x" [])) rfl

end Policy

end PolicyCheck.Structural
