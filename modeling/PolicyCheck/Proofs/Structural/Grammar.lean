import Mathlib.Data.List.Forall2
import Mathlib.Data.List.Nodup
import PolicyCheck.Proofs.Definition.Walk
import PolicyCheck.Proofs.Structural.Check

/-!
# The grammar of definitions

A definition is a policy unless it contains a tagged value or a key that is no string. Compilation follows
the walk through the definition: the first item that no policy may contain is the fault, and where there is
none, each null and each scalar has become one check, in the order of the walk and with its path.
-/

namespace PolicyCheck

theorem Path.step_eq_of_prefix {path q : Path} {step step' : Step} (h : path ++ [step] <+: q)
    (h' : path ++ [step'] <+: q) : step = step' := by
  have hlength : (path ++ [step]).length = (path ++ [step']).length := by simp
  have heq := (List.prefix_of_prefix_length_le h h' (Nat.le_of_eq hlength)).eq_of_length hlength
  simpa using heq

namespace Structural

/-- Whether a check asks for what a null or a scalar of a definition stands for. -/
inductive Check.Asks : Check → Path × Definition → Prop
  | null (path : Path) : Asks (.absent path) (path, .null)
  | bool (path : Path) (b : Bool) : Asks (.literal path (.bool b)) (path, .bool b)
  | number (path : Path) (n : Number) : Asks (.literal path (.ofNumber n)) (path, .number n)
  | string (path : Path) (text : String) : Asks (.literal path (.string text)) (path, .string text)

namespace Node

open Definition (Item itemsAt sequenceItems entryItems)

/-! ### The first fault -/

/-- The fault that a compilation ends with, if it does. -/
def Compilation.fault? {α : Type} (c : Compilation α) : Option PolicyFault :=
  match c.result with
  | .ok _ => none
  | .error fault => some fault

theorem Compilation.fault?_visiting {α : Type} (visit : Visit) (c : Compilation α) :
    (c.visiting visit).fault? = c.fault? := rfl

theorem Compilation.fault?_andThen_done {α β : Type} (c : Compilation α) (f : α → β) :
    (c.andThen fun a => done (f a)).fault? = c.fault? := by
  rw [fault?, fault?, andThen]
  cases c.result <;> rfl

theorem Compilation.fault?_andThen_andThen_done {α β γ : Type} (c : Compilation α) (d : Compilation β)
    (f : α → β → γ) :
    (c.andThen fun a => d.andThen fun b => done (f a b)).fault? = c.fault?.or d.fault? := by
  rw [fault?, fault?, andThen]
  cases c.result with
  | error fault => rfl
  | ok a => exact fault?_andThen_done d (f a)

theorem Compilation.fault?_eq_some_iff {α : Type} {c : Compilation α} {fault : PolicyFault} :
    c.fault? = some fault ↔ c.result = .error fault := by
  rw [fault?]
  cases c.result <;> simp

mutual

theorem fault?_compileAt (path : Path) (definition : Definition) :
    (compileAt path definition).fault? = (definition.itemsAt path).findSome? Item.fault? := by
  match definition with
  | .null | .bool _ | .number _ | .string _ | .tagged .. => rfl
  | .sequence items =>
    rw [compileAt, Compilation.fault?_visiting, Compilation.fault?_andThen_done, fault?_compileItems]
    rfl
  | .mapping entries =>
    rw [compileAt, Compilation.fault?_visiting, Compilation.fault?_andThen_done, fault?_compileEntries]
    rfl

theorem fault?_compileItems (path : Path) (position : Nat) (items : List Definition) :
    (compileItems path position items).fault? =
      (sequenceItems path position items).findSome? Item.fault? := by
  match items with
  | [] => rfl
  | item :: items =>
    rw [compileItems, Compilation.fault?_andThen_andThen_done, fault?_compileAt, fault?_compileItems,
      sequenceItems, List.findSome?_append]

theorem fault?_compileEntries (path : Path) (entries : List (Definition × Definition)) :
    (compileEntries path entries).fault? = (entryItems path entries).findSome? Item.fault? := by
  match entries with
  | [] => rfl
  | (.string name, value) :: entries =>
    rw [compileEntries, Compilation.fault?_andThen_andThen_done, fault?_compileAt,
      fault?_compileEntries, ← List.findSome?_append]
    rfl
  | (.null, _) :: _ | (.bool _, _) :: _ | (.number _, _) :: _ | (.sequence _, _) :: _
  | (.mapping _, _) :: _ | (.tagged .., _) :: _ => rfl

end

theorem compile_eq_error_iff {definition : Definition} {fault : PolicyFault} :
    compile definition = .error fault ↔ definition.items.findSome? Item.fault? = some fault := by
  rw [Definition.items, ← fault?_compileAt, Compilation.fault?_eq_some_iff, compile_eq]

theorem exists_error_iff (definition : Definition) : (∃ fault, compile definition = .error fault) ↔
    ∃ part : Definition, part.PartOf definition ∧ part.Foreign := by
  simp only [compile_eq_error_iff]
  rw [← Option.isSome_iff_exists, List.findSome?_isSome_iff]
  constructor
  · intro ⟨item, hitem, hfault⟩
    exact Definition.exists_foreign_of_fault hitem hfault
  · intro ⟨part, hpart, hforeign⟩
    exact Definition.exists_fault_of_partOf hpart hforeign []

theorem exists_compile_eq_ok_iff (definition : Definition) : (∃ root, compile definition = .ok root) ↔
    ¬ ∃ part : Definition, part.PartOf definition ∧ part.Foreign := by
  rw [← exists_error_iff]
  cases compile definition <;> simp

/-! ### One check for each leaf -/

mutual

/-- The checks of a compiled tree are those that the leaves of its definition ask for. -/
theorem asks_of_compileAt {path : Path} {definition : Definition} {node : Node}
    (h : (compileAt path definition).result = .ok node) :
    List.Forall₂ Check.Asks node.checks ((definition.itemsAt path).filterMap Item.leaf?) := by
  match definition with
  | .null =>
    obtain rfl : .absent path = node := by simpa [compileAt] using h
    exact .cons (.null path) .nil
  | .bool b =>
    obtain rfl : .literal path (.bool b) = node := by simpa [compileAt, result_leaf] using h
    exact .cons (.bool path b) .nil
  | .number n =>
    obtain rfl : .literal path (.ofNumber n) = node := by simpa [compileAt, result_leaf] using h
    exact .cons (.number path n) .nil
  | .string text =>
    obtain rfl : .literal path (.string text) = node := by simpa [compileAt, result_leaf] using h
    exact .cons (.string path text) .nil
  | .sequence items =>
    obtain ⟨nodes, hnodes, rfl⟩ := compileAt_sequence_eq_ok.1 h
    exact asks_of_compileItems hnodes
  | .mapping entries =>
    obtain ⟨nodes, hnodes, rfl⟩ := compileAt_mapping_eq_ok.1 h
    exact asks_of_compileEntries hnodes
  | .tagged tag value => simp [compileAt, Compilation.result_fail] at h

theorem asks_of_compileItems {path : Path} {position : Nat} {items : List Definition}
    {nodes : List Node} (h : (compileItems path position items).result = .ok nodes) :
    List.Forall₂ Check.Asks (checksOf nodes)
      ((sequenceItems path position items).filterMap Item.leaf?) := by
  match items with
  | [] =>
    obtain rfl : [] = nodes := by simpa [compileItems] using h
    exact .nil
  | item :: items =>
    obtain ⟨node, hnode, others, hothers, rfl⟩ := compileItems_cons_eq_ok.1 h
    rw [checksOf, sequenceItems, List.filterMap_append]
    exact List.rel_append (asks_of_compileAt hnode) (asks_of_compileItems hothers)

theorem asks_of_compileEntries {path : Path} {entries : List (Definition × Definition)}
    {nodes : List Node} (h : (compileEntries path entries).result = .ok nodes) :
    List.Forall₂ Check.Asks (checksOf nodes) ((entryItems path entries).filterMap Item.leaf?) := by
  match entries with
  | [] =>
    obtain rfl : [] = nodes := by simpa [compileEntries] using h
    exact .nil
  | (key, value) :: entries =>
    obtain ⟨name, rfl, node, hnode, others, hothers, rfl⟩ := compileEntries_cons_eq_ok.1 h
    rw [checksOf, entryItems, List.filterMap_cons_none rfl, List.filterMap_append]
    exact List.rel_append (asks_of_compileAt hnode) (asks_of_compileEntries hothers)

end

theorem asks_of_compile {definition : Definition} {root : Node} (h : compile definition = .ok root) :
    List.Forall₂ Check.Asks root.checks definition.leaves :=
  asks_of_compileAt (compile_eq definition ▸ h)

/-! ### No path twice -/

mutual

theorem prefix_of_compileAt {path : Path} {definition : Definition} {node : Node}
    (h : (compileAt path definition).result = .ok node) {check : Check} (hcheck : check ∈ node.checks) :
    path <+: check.path := by
  match definition with
  | .null | .bool _ | .number _ | .string _ =>
    cases h
    obtain rfl := List.mem_singleton.1 hcheck
    exact List.prefix_refl path
  | .sequence items =>
    obtain ⟨nodes, hnodes, rfl⟩ := compileAt_sequence_eq_ok.1 h
    obtain ⟨i, -, hprefix⟩ := prefix_of_compileItems hnodes hcheck
    exact (List.prefix_append path _).trans hprefix
  | .mapping entries =>
    obtain ⟨nodes, hnodes, rfl⟩ := compileAt_mapping_eq_ok.1 h
    obtain ⟨name, -, hprefix⟩ := prefix_of_compileEntries hnodes hcheck
    exact (List.prefix_append path _).trans hprefix
  | .tagged tag value => cases h

theorem prefix_of_compileItems {path : Path} {position : Nat} {items : List Definition}
    {nodes : List Node} (h : (compileItems path position items).result = .ok nodes) {check : Check}
    (hcheck : check ∈ checksOf nodes) : ∃ i, position ≤ i ∧ path ++ [.index i] <+: check.path := by
  match items with
  | [] =>
    cases h
    cases hcheck
  | item :: items =>
    obtain ⟨node, hnode, others, hothers, rfl⟩ := compileItems_cons_eq_ok.1 h
    rcases List.mem_append.1 hcheck with hcheck | hcheck
    · exact ⟨position, Nat.le_refl _, prefix_of_compileAt hnode hcheck⟩
    · obtain ⟨i, hi, hprefix⟩ := prefix_of_compileItems hothers hcheck
      exact ⟨i, by omega, hprefix⟩

theorem prefix_of_compileEntries {path : Path} {entries : List (Definition × Definition)}
    {nodes : List Node} (h : (compileEntries path entries).result = .ok nodes) {check : Check}
    (hcheck : check ∈ checksOf nodes) :
    ∃ name, .string name ∈ entries.map Prod.fst ∧ path ++ [.key name] <+: check.path := by
  match entries with
  | [] =>
    cases h
    cases hcheck
  | (key, value) :: entries =>
    obtain ⟨name, rfl, node, hnode, others, hothers, rfl⟩ := compileEntries_cons_eq_ok.1 h
    rcases List.mem_append.1 hcheck with hcheck | hcheck
    · exact ⟨name, List.mem_cons_self, prefix_of_compileAt hnode hcheck⟩
    · obtain ⟨other, hother, hprefix⟩ := prefix_of_compileEntries hothers hcheck
      exact ⟨other, List.mem_cons_of_mem _ hother, hprefix⟩

end

private theorem nodup_paths_append {path : Path} {step : Step} {checks others : List Check}
    (hchecks : (checks.map Check.path).Nodup) (hothers : (others.map Check.path).Nodup)
    (hbelow : ∀ check ∈ checks, path ++ [step] <+: check.path)
    (hbeside : ∀ check ∈ others, ∃ step', step ≠ step' ∧ path ++ [step'] <+: check.path) :
    ((checks ++ others).map Check.path).Nodup := by
  rw [List.map_append, List.nodup_append]
  refine ⟨hchecks, hothers, fun p hp q hq heq => ?_⟩
  obtain ⟨check, hcheck, rfl⟩ := List.mem_map.1 hp
  obtain ⟨other, hother, rfl⟩ := List.mem_map.1 hq
  obtain ⟨step', hne, hprefix⟩ := hbeside other hother
  exact hne (Path.step_eq_of_prefix (hbelow check hcheck) (heq ▸ hprefix))

mutual

theorem nodup_of_compileAt {path : Path} {definition : Definition} {node : Node}
    (h : (compileAt path definition).result = .ok node) (hkeys : definition.DistinctKeys) :
    (node.checks.map Check.path).Nodup := by
  match definition with
  | .null | .bool _ | .number _ | .string _ =>
    cases h
    exact List.nodup_singleton path
  | .sequence items =>
    obtain ⟨nodes, hnodes, rfl⟩ := compileAt_sequence_eq_ok.1 h
    exact nodup_of_compileItems hnodes hkeys.of_item
  | .mapping entries =>
    obtain ⟨nodes, hnodes, rfl⟩ := compileAt_mapping_eq_ok.1 h
    exact nodup_of_compileEntries hnodes (hkeys entries (.self _)) hkeys.of_value
  | .tagged tag value => cases h

theorem nodup_of_compileItems {path : Path} {position : Nat} {items : List Definition}
    {nodes : List Node} (h : (compileItems path position items).result = .ok nodes)
    (hkeys : ∀ item ∈ items, item.DistinctKeys) : ((checksOf nodes).map Check.path).Nodup := by
  match items with
  | [] =>
    cases h
    exact List.nodup_nil
  | item :: items =>
    obtain ⟨node, hnode, others, hothers, rfl⟩ := compileItems_cons_eq_ok.1 h
    obtain ⟨hitem, hitems⟩ := List.forall_mem_cons.1 hkeys
    apply nodup_paths_append (nodup_of_compileAt hnode hitem) (nodup_of_compileItems hothers hitems)
      fun check hcheck => prefix_of_compileAt hnode hcheck
    intro check hcheck
    obtain ⟨i, hi, hprefix⟩ := prefix_of_compileItems hothers hcheck
    refine ⟨.index i, fun heq => ?_, hprefix⟩
    cases heq
    omega

theorem nodup_of_compileEntries {path : Path} {entries : List (Definition × Definition)}
    {nodes : List Node} (h : (compileEntries path entries).result = .ok nodes)
    (hkeys : (entries.map Prod.fst).Nodup) (hvalues : ∀ entry ∈ entries, entry.2.DistinctKeys) :
    ((checksOf nodes).map Check.path).Nodup := by
  match entries with
  | [] =>
    cases h
    exact List.nodup_nil
  | (key, value) :: entries =>
    obtain ⟨name, rfl, node, hnode, others, hothers, rfl⟩ := compileEntries_cons_eq_ok.1 h
    obtain ⟨hname, hkeys⟩ := List.nodup_cons.1 hkeys
    obtain ⟨hvalue, hvalues⟩ := List.forall_mem_cons.1 hvalues
    apply nodup_paths_append (nodup_of_compileAt hnode hvalue)
      (nodup_of_compileEntries hothers hkeys hvalues)
      fun check hcheck => prefix_of_compileAt hnode hcheck
    intro check hcheck
    obtain ⟨other, hother, hprefix⟩ := prefix_of_compileEntries hothers hcheck
    refine ⟨.key other, fun heq => ?_, hprefix⟩
    cases heq
    exact hname hother

end

end Node

namespace Policy

open Definition (Item)

theorem exists_message_eq {item : Item} {fault : PolicyFault} (h : item.fault? = some fault) :
    ∃ front rest, (Error.invalidPolicy fault).message =
      front ++ " at '" ++ item.path.dotted ++ "'" ++ rest := by
  cases item with
  | value path value =>
    obtain ⟨tag, -, -, rfl⟩ := Item.eq_tagged_of_fault? h
    refine ⟨"Invalid policy: no support for tagged value !" ++ tag, "", ?_⟩
    rw [String.append_empty]
    rfl
  | key path key =>
    obtain rfl := Item.eq_of_fault?_key h
    have hquote : "' is not a string" = "'" ++ " is not a string" := by decide
    refine ⟨"Invalid policy: mapping key " ++ key.shown, " is not a string", ?_⟩
    rw [String.append_assoc, ← hquote]
    rfl

/-- Compiling refuses a definition exactly if something in it is no policy, and with the first such thing
that the walk comes to. Otherwise each null and each scalar has become one check with its path, in the
order of the walk, and no two of them have a path in common. -/
theorem compile_grammar (p : Policy) {definition : Definition} (hkeys : definition.DistinctKeys) :
    ((∃ e, p.compile definition = .error e) ↔
      ∃ part : Definition, part.PartOf definition ∧ part.Foreign) ∧
    (∀ e, p.compile definition = .error e → ∃ before item after fault,
      definition.items = before ++ item :: after ∧ (∀ other ∈ before, other.fault? = none) ∧
      item.fault? = some fault ∧ e = .invalidPolicy fault ∧
      ∃ front rest, e.message = front ++ " at '" ++ item.path.dotted ++ "'" ++ rest) ∧
    (∀ q, p.compile definition = .ok q → ∃ root, q.root? = some root ∧
      List.Forall₂ Check.Asks root.checks definition.leaves ∧
      (root.checks.map Check.path).Nodup ∧ root.checkCount = definition.leaves.length) := by
  refine ⟨?_, fun e he => ?_, fun q hq => ?_⟩
  · rw [← Node.exists_error_iff]
    simp only [compile_eq_error_iff]
    constructor
    · intro ⟨_, fault, hfault, _⟩
      exact ⟨fault, hfault⟩
    · intro ⟨fault, hfault⟩
      exact ⟨_, fault, hfault, rfl⟩
  · obtain ⟨fault, hfault, rfl⟩ := compile_eq_error_iff.1 he
    obtain ⟨before, item, after, hitems, hitem, hbefore⟩ :=
      List.findSome?_eq_some_iff.1 (Node.compile_eq_error_iff.1 hfault)
    exact ⟨before, item, after, fault, hitems, hbefore, hitem, rfl, exists_message_eq hitem⟩
  · obtain ⟨root, hroot, rfl⟩ := compile_eq_ok_iff.1 hq
    have hasks := Node.asks_of_compile hroot
    refine ⟨root, rfl, hasks, Node.nodup_of_compileAt (Node.compile_eq definition ▸ hroot) hkeys, ?_⟩
    rw [Node.checkCount_eq_length, hasks.length_eq]

/-- A definition with a tagged value, and with a key that is no string further on. -/
def tagBeforeKey : Definition :=
  .mapping [(.string "a", .sequence [.null, .tagged "x" .null]), (.bool true, .null)]

def keyTwice : Definition :=
  .mapping [(.string "a", .sequence [.null, .mapping [(.string "a", .bool true)]])]

/-- A tagged value is refused, and a key may stand in two mappings. -/
theorem compile_grammar_keyTwice :
    tagBeforeKey.DistinctKeys ∧ keyTwice.DistinctKeys ∧
    (∃ e, (new "p" "").compile tagBeforeKey = .error e) ∧
    ∃ q root, (new "p" "").compile keyTwice = .ok q ∧ q.root? = some root ∧ root.checkCount = 2 ∧
      (root.checks.map Check.path).Nodup := by
  have hstring : (Definition.string "a").DistinctKeys := fun _ h => nomatch h
  have hbool : (Definition.bool true).DistinctKeys := fun _ h => nomatch h
  have hnull : Definition.null.DistinctKeys := fun _ h => nomatch h
  have htag : tagBeforeKey.DistinctKeys := by
    refine .mapping (by simp) ?_
    simp only [List.forall_mem_cons]
    refine ⟨⟨hstring, .sequence ?_⟩, ⟨hbool, hnull⟩, List.forall_mem_nil _⟩
    simp only [List.forall_mem_cons]
    exact ⟨hnull, .tagged hnull, List.forall_mem_nil _⟩
  have htwice : keyTwice.DistinctKeys := by
    refine .mapping (by simp) ?_
    simp only [List.forall_mem_cons]
    refine ⟨⟨hstring, .sequence ?_⟩, List.forall_mem_nil _⟩
    simp only [List.forall_mem_cons]
    refine ⟨hnull, .mapping (by simp) ?_, List.forall_mem_nil _⟩
    simp only [List.forall_mem_cons]
    exact ⟨⟨hstring, hbool⟩, List.forall_mem_nil _⟩
  refine ⟨htag, htwice, ?_, ?_⟩
  · apply (compile_grammar (new "p" "") htag).1.2
    exact ⟨_, .value List.mem_cons_self (.item (by simp) (.self _)), .tagged "x" .null⟩
  · obtain ⟨root, hroot, -, hnodup, hcount⟩ := (compile_grammar (new "p" "") htwice).2.2 _ rfl
    exact ⟨_, root, rfl, hroot, hcount, hnodup⟩

end Policy

end Structural

end PolicyCheck
