import PolicyCheck.Proofs.Pairs
import PolicyCheck.Proofs.Structural.Grammar
import PolicyCheck.Structural.Record

/-!
# Compiled policies read back from JSON

Steps and literals carry no kind, so that reading them back is telling the values of JSON apart: what is
written for one kind is read as no kind before it. A literal that is not finite is the one thing that is
lost, since `null` is read as no literal at all.
-/

namespace PolicyCheck

namespace Step

/-- A key is read as a key, also one made of digits, and an index as an index. -/
theorem ofJson?_toJson (step : Step) : ofJson? step.toJson = some step := by
  cases step with
  | key name => rfl
  | index position =>
    rw [toJson, Json.ofNat, Json.ofInt, ofJson?, if_pos (Int.natCast_nonneg position), Int.toNat_natCast]

end Step

namespace Structural

namespace Literal

/-- Whether the literal is anything but a number that is not finite. -/
def isFinite : Literal → Bool
  | .double value => value.isFinite
  | _ => true

def Fits : Literal → Prop
  | .int value => Text.FitsInt64 value
  | _ => True

theorem fits_ofNumber (n : Number) : (ofNumber n).Fits := by
  rw [ofNumber]
  cases hn : n.int64? with
  | none => trivial
  | some value =>
    cases n with
    | double d => cases hn
    | int m =>
      rw [Number.int64?] at hn
      obtain ⟨hfits, hm⟩ := Option.ite_none_right_eq_some.1 hn
      obtain rfl := Option.some.inj hm
      exact hfits

/-- A literal is read back as it was, unless it is not finite; an integer and a number with a fraction
stay apart, though they may be equal. -/
theorem ofJson?_toJson {value : Literal} (h : value.Fits) :
    ofJson? value.toJson = if value.isFinite then some value else none := by
  cases value with
  | bool b => rfl
  | string text => rfl
  | int n =>
    rw [toJson, Json.ofInt, ofJson?, ofNumber, Number.int64?, if_pos (show Text.FitsInt64 n from h)]
    rfl
  | double d =>
    rw [toJson, isFinite]
    cases d.isFinite <;> rfl

theorem toJson_eq_null_iff {value : Literal} : value.toJson = .null ↔ value.isFinite = false := by
  cases value with
  | bool b => simp [toJson, isFinite]
  | string text => simp [toJson, isFinite]
  | int n => simp [toJson, isFinite, Json.ofInt]
  | double d =>
    rw [toJson, isFinite]
    cases d.isFinite <;> simp

end Literal

namespace Check

/-- Whether the check asks for no literal that is not finite. -/
def isFinite : Check → Bool
  | .literal _ value => value.isFinite
  | .absent _ => true

/-- An integer that the check asks for fits a signed word of 64 bits. -/
def Fits : Check → Prop
  | .literal _ value => value.Fits
  | .absent _ => True

theorem Asks.fits {check : Check} {leaf : Path × Definition} (h : check.Asks leaf) : check.Fits := by
  cases h with
  | null path => trivial
  | bool path b => trivial
  | number path n => exact Literal.fits_ofNumber n
  | string path text => trivial

end Check

namespace Node

theorem fits_of_compile {definition : Definition} {root : Node} (h : compile definition = .ok root) :
    ∀ check ∈ root.checks, check.Fits := by
  intro check hcheck
  obtain ⟨leaf, -, hasks⟩ := exists_mem_of_forall₂_left (asks_of_compile h) hcheck
  exact hasks.fits

/-! ### The parts of a node -/

theorem path?_toJson (path : Path) : path? (.array (path.map Step.toJson)) = some path := by
  rw [path?, mapM_eq_some_iff, List.forall₂_map_left_iff, List.forall₂_same]
  exact fun step _ => step.ofJson?_toJson

theorem parts?_literal (root : Bool) (path : Path) (value : Literal) :
    parts? root (toJson (.literal path value)) =
      some ("literal", [some (.array (path.map Step.toJson)), some value.toJson]) := by
  rfl

theorem parts?_absent (root : Bool) (path : Path) :
    parts? root (toJson (.absent path)) = some ("absent", [some (.array (path.map Step.toJson))]) := by
  rfl

theorem parts?_allOf (root : Bool) (children : List Node) :
    parts? root (toJson (.allOf children)) = some ("all_of", [some (.array (toJsons children))]) := by
  rfl

theorem depths_lt_depth_allOf (children : List Node) :
    depths (toJsons children) < depth (toJson (.allOf children)) := by
  simp only [toJson, depth, fieldDepths]
  omega

mutual

/-- A tree is read back as it was if all its literals are finite, and otherwise not at all. -/
theorem ofJsonWithin?_toJson {levels : Nat} (root : Bool) (node : Node) (hlevels : depth node.toJson ≤ levels)
    (hfits : ∀ check ∈ node.checks, check.Fits) :
    ofJsonWithin? levels root node.toJson = if node.checks.all Check.isFinite then some node else none := by
  -- An object is nested at least once, so there is a level to take.
  obtain _ | levels := levels
  · cases node <;> exact absurd hlevels (Nat.not_succ_le_zero _)
  match node with
  | .literal path value =>
    have hvalue : value.Fits := hfits _ List.mem_cons_self
    rw [ofJsonWithin?, parts?_literal]
    simp only [Option.bind_eq_bind, Option.bind_some, path?_toJson, Literal.ofJson?_toJson hvalue,
      checks, List.all_cons, List.all_nil, Bool.and_true, Check.isFinite]
    cases value.isFinite <;> rfl
  | .absent path =>
    rw [ofJsonWithin?, parts?_absent]
    simp only [Option.bind_eq_bind, Option.bind_some, path?_toJson]
    rfl
  | .allOf children =>
    have hchildren : depths (toJsons children) ≤ levels :=
      Nat.le_of_lt_succ (Nat.lt_of_lt_of_le (depths_lt_depth_allOf children) hlevels)
    rw [ofJsonWithin?, parts?_allOf, checks]
    simp only [Option.bind_eq_bind, Option.bind_some,
      mapM_ofJsonWithin?_toJsons children hchildren hfits]
    split <;> rfl

theorem mapM_ofJsonWithin?_toJsons {levels : Nat} (nodes : List Node) (hlevels : depths (toJsons nodes) ≤ levels)
    (hfits : ∀ check ∈ checksOf nodes, check.Fits) :
    (toJsons nodes).mapM (ofJsonWithin? levels false) =
      if (checksOf nodes).all Check.isFinite then some nodes else none := by
  match nodes with
  | [] => rfl
  | node :: nodes =>
    obtain ⟨hnode, hnodes⟩ := Nat.max_le.1 hlevels
    obtain ⟨hfirst, hothers⟩ := List.forall_mem_append.1 hfits
    rw [toJsons, List.mapM_cons, ofJsonWithin?_toJson false node hnode hfirst,
      mapM_ofJsonWithin?_toJsons nodes hnodes hothers, checksOf, List.all_append]
    cases node.checks.all Check.isFinite
    · rfl
    · cases (checksOf nodes).all Check.isFinite <;> rfl

end

theorem ofJson?_toJson {node : Node} (hfits : ∀ check ∈ node.checks, check.Fits) :
    ofJson? node.toJson = if node.checks.all Check.isFinite then some node else none :=
  ofJsonWithin?_toJson true node (Nat.le_refl _) hfits

/-! ### The values in the value of a tree -/

mutual

theorem exists_lookup_of_mem_checks {node : Node} {check : Check} (h : check ∈ node.checks) :
    ∃ q, node.toJson.lookup q = some check.node.toJson := by
  match node with
  | .literal .. | .absent _ =>
    obtain rfl := List.mem_singleton.1 h
    exact ⟨[], rfl⟩
  | .allOf children =>
    obtain ⟨position, child, hchild, q, hq⟩ := exists_lookup_of_mem_checksOf h
    refine ⟨.key "children" :: .index position :: q, ?_⟩
    show (toJsons children)[position]?.bind (Json.lookup q) = _
    rw [hchild, Option.bind_some, hq]

theorem exists_lookup_of_mem_checksOf {nodes : List Node} {check : Check} (h : check ∈ checksOf nodes) :
    ∃ (position : Nat) (value : Json), (toJsons nodes)[position]? = some value ∧
      ∃ q, value.lookup q = some check.node.toJson := by
  match nodes with
  | [] => cases h
  | node :: nodes =>
    rcases List.mem_append.1 h with h | h
    · obtain ⟨q, hq⟩ := exists_lookup_of_mem_checks h
      exact ⟨0, node.toJson, rfl, q, hq⟩
    · obtain ⟨position, value, hvalue, q, hq⟩ := exists_lookup_of_mem_checksOf h
      exact ⟨position + 1, value, hvalue, q, hq⟩

end

/-! ### Reading back -/

def IsFinite (node : Node) : Prop := ∀ path value, .literal path value ∈ node.checks → value.isFinite = true

theorem isFinite_iff {node : Node} : node.IsFinite ↔ node.checks.all Check.isFinite = true := by
  rw [IsFinite, List.all_eq_true]
  constructor
  · intro h check hcheck
    cases check with
    | literal path value => exact h path value hcheck
    | absent path => rfl
  · exact fun h path value hcheck => h _ hcheck

theorem ofJson?_toJson_eq_some_iff {node other : Node} (hfits : ∀ check ∈ node.checks, check.Fits) :
    ofJson? node.toJson = some other ↔ node.IsFinite ∧ node = other := by
  rw [ofJson?_toJson hfits, isFinite_iff]
  simp

/-- A compiled tree is read back from its value, as it was and as no other, unless one of its literals is a
number that is not finite. Such a literal is written as null, and then nothing is read back. -/
theorem compiled_reads_back {definition : Definition} {root : Node} (h : compile definition = .ok root) :
    (ofJson? root.toJson = some root ↔ root.IsFinite) ∧
      (∀ path d, .literal path (.double d) ∈ root.checks → d = .nan ∨ (∃ negative, d = .infinite negative) →
        ofJson? root.toJson = none ∧ ∃ q, root.toJson.lookup (q ++ [.key "value"]) = some .null) ∧
      ∀ definition' root', compile definition' = .ok root' → root'.toJson = root.toJson →
        root.IsFinite → root' = root := by
  have hfits := fits_of_compile h
  have hback : ofJson? root.toJson = some root ↔ root.IsFinite ∧ root = root :=
    ofJson?_toJson_eq_some_iff hfits
  refine ⟨by simpa using hback, ?_, ?_⟩
  · intro path d hvalue hd
    have hinfinite : (Literal.double d).isFinite = false := by
      obtain rfl | ⟨negative, rfl⟩ := hd <;> rfl
    constructor
    · rw [ofJson?_toJson hfits, if_neg]
      intro hall
      rw [isFinite_iff.2 hall path _ hvalue] at hinfinite
      cases hinfinite
    · obtain ⟨q, hq⟩ := exists_lookup_of_mem_checks hvalue
      refine ⟨q, ?_⟩
      rw [Json.lookup_append, hq, Option.bind_some, ← Literal.toJson_eq_null_iff.2 hinfinite]
      rfl
  · intro definition' root' h' hvalue hfinite
    have hread : ofJson? root'.toJson = some root := by
      rw [hvalue, hback]
      exact ⟨hfinite, rfl⟩
    exact ((ofJson?_toJson_eq_some_iff (fits_of_compile h')).1 hread).2

/-- A definition with values that look alike: an integer and a double that are equal, the texts of a number
and of a truth value, and a key made of a digit next to a position. -/
def lookAlikes : Definition :=
  .mapping [(.string "0", .sequence [.number (.int 1), .number (.double (.finite false Double.fullMantissa 1022)),
    .string "1", .string "true", .bool true])]

def endless : Definition := .sequence [.null, .number (.double (.infinite true))]

/-- Values that look alike are told apart, and an infinity is not read back. -/
theorem compiled_reads_back_lookAlikes :
    (∃ root, compile lookAlikes = .ok root ∧ root.IsFinite ∧ ofJson? root.toJson = some root) ∧
      ∃ root, compile endless = .ok root ∧ ofJson? root.toJson = none ∧
        ∃ q, root.toJson.lookup (q ++ [.key "value"]) = some .null := by
  constructor
  · obtain ⟨root, hroot, hall⟩ : ∃ root, compile lookAlikes = .ok root ∧ root.checks.all Check.isFinite = true :=
      ⟨_, rfl, by decide⟩
    have hfinite := isFinite_iff.2 hall
    exact ⟨root, hroot, hfinite, (compiled_reads_back hroot).1.2 hfinite⟩
  · obtain ⟨root, hroot, hinfinite⟩ :
        ∃ root, compile endless = .ok root ∧ .literal [.index 1] (.double (.infinite true)) ∈ root.checks :=
      ⟨_, rfl, List.mem_cons_of_mem _ List.mem_cons_self⟩
    exact ⟨root, hroot, (compiled_reads_back hroot).2.1 _ _ hinfinite (.inr ⟨true, rfl⟩)⟩

end Node

end Structural

end PolicyCheck
