import Debundle.Proofs.Tree.Position
import Debundle.Proofs.Tree.Related

/-!
# Well-formed scripts

Trees come from outside and may hold anything.  The grammar says which nodes a script is
made of: what the fields of a node of each kind hold, and which of them may be missing.
It is generous where the language is strict, since nothing here depends on it: a pattern
may hold the target of an assignment wherever it may bind a name, and every kind of
function may have an expression for its body.
-/

namespace Debundle

/-- What a field of a node, or an item of an array, holds. -/
inductive Slot where
  /-- Anything without a node in it: flags, operators, texts, places in the source. -/
  | plain
  | text
  | one (kinds : List Kind)
  /-- A node, or null.  A field of this sort may be missing. -/
  | optional (kinds : List Kind)
  | many (kinds : List Kind)
  /-- An array with a node or null at every place. -/
  | holey (kinds : List Kind)

namespace Slot

/-- The kinds of the nodes that the slot holds, by themselves or in an array. -/
def kinds : Slot → List Kind
  | .plain | .text => []
  | .one kinds | .optional kinds | .many kinds | .holey kinds => kinds

/-- Whether a node of this kind may stand in the slot. -/
def admits : Slot → Kind → Bool
  | .one kinds, kind | .optional kinds, kind => kinds.contains kind
  | _, _ => false

/-- What the items of an array in the slot hold, if an array may stand there. -/
def items? : Slot → Option Slot
  | .plain => some .plain
  | .many kinds => some (.one kinds)
  | .holey kinds => some (.optional kinds)
  | _ => none

/-- Whether a leaf may stand in the slot. -/
def takes : Slot → Value → Bool
  | .plain, _ => true
  | .text, .text _ => true
  | .optional _, .null => true
  | _, _ => false

def mayMiss : Slot → Bool
  | .plain | .optional _ => true
  | _ => false

theorem mem_kinds_of_admits {slot : Slot} {kind : Kind} (hadmits : slot.admits kind = true) :
    kind ∈ slot.kinds := by
  cases slot with
  | one kinds => exact List.contains_iff_mem.1 hadmits
  | optional kinds => exact List.contains_iff_mem.1 hadmits
  | _ => simp [admits] at hadmits

theorem kinds_of_items? {slot inner : Slot} (hinner : slot.items? = some inner) :
    inner.kinds = slot.kinds := by
  cases slot <;> cases hinner <;> rfl

end Slot

namespace Kind

def expressions : List Kind :=
  [.arrayExpression, .arrowFunctionExpression, .assignmentExpression, .awaitExpression,
    .binaryExpression, .callExpression, .classExpression, .conditionalExpression,
    .functionExpression, .identifier, .literal, .logicalExpression, .memberExpression,
    .metaProperty, .newExpression, .objectExpression, .sequenceExpression, .super,
    .taggedTemplateExpression, .templateLiteral, .thisExpression, .unaryExpression,
    .updateExpression, .yieldExpression]

/-- What may be bound or assigned to. -/
def targets : List Kind :=
  [.identifier, .memberExpression, .assignmentPattern, .arrayPattern, .objectPattern,
    .restElement]

def statements : List Kind :=
  [.blockStatement, .breakStatement, .classDeclaration, .continueStatement,
    .debuggerStatement, .doWhileStatement, .emptyStatement, .expressionStatement,
    .forInStatement, .forOfStatement, .forStatement, .functionDeclaration, .ifStatement,
    .labeledStatement, .returnStatement, .switchStatement, .throwStatement, .tryStatement,
    .variableDeclaration, .whileStatement, .withStatement]

def isFunction : Kind → Bool
  | .functionExpression | .functionDeclaration | .arrowFunctionExpression => true
  | _ => false

/-- The fields of a node of this kind that hold more than plain data. -/
def slots : Kind → List (String × Slot)
  | .identifier => [("name", .text)]
  | .arrayExpression => [("elements", .holey (.spreadElement :: expressions))]
  | .objectExpression => [("properties", .many [.property, .spreadElement])]
  | .property => [("key", .one expressions), ("value", .one (expressions ++ targets))]
  | .functionExpression | .arrowFunctionExpression =>
    [("id", .optional [.identifier]), ("params", .many targets),
      ("body", .one (.blockStatement :: expressions))]
  | .functionDeclaration =>
    [("id", .one [.identifier]), ("params", .many targets),
      ("body", .one (.blockStatement :: expressions))]
  | .classExpression =>
    [("id", .optional [.identifier]), ("superClass", .optional expressions),
      ("body", .one [.classBody])]
  | .classDeclaration =>
    [("id", .one [.identifier]), ("superClass", .optional expressions),
      ("body", .one [.classBody])]
  | .classBody => [("body", .many [.methodDefinition])]
  | .methodDefinition => [("key", .one expressions), ("value", .one [.functionExpression])]
  | .unaryExpression | .updateExpression | .awaitExpression | .spreadElement =>
    [("argument", .one expressions)]
  | .binaryExpression | .logicalExpression =>
    [("left", .one expressions), ("right", .one expressions)]
  | .assignmentExpression => [("left", .one targets), ("right", .one expressions)]
  | .conditionalExpression =>
    [("test", .one expressions), ("consequent", .one expressions),
      ("alternate", .one expressions)]
  | .callExpression | .newExpression =>
    [("callee", .one expressions), ("arguments", .many (.spreadElement :: expressions))]
  | .memberExpression => [("object", .one expressions), ("property", .one expressions)]
  | .sequenceExpression => [("expressions", .many expressions)]
  | .yieldExpression => [("argument", .optional expressions)]
  | .metaProperty => [("meta", .one [.identifier]), ("property", .one [.identifier])]
  | .templateLiteral =>
    [("quasis", .many [.templateElement]), ("expressions", .many expressions)]
  | .taggedTemplateExpression => [("tag", .one expressions), ("quasi", .one [.templateLiteral])]
  | .assignmentPattern => [("left", .one targets), ("right", .one expressions)]
  | .arrayPattern => [("elements", .holey targets)]
  | .objectPattern => [("properties", .many [.property, .restElement])]
  | .restElement => [("argument", .one targets)]
  | .blockStatement | .program => [("body", .many statements)]
  | .expressionStatement => [("expression", .one expressions)]
  | .returnStatement => [("argument", .optional expressions)]
  | .throwStatement => [("argument", .one expressions)]
  | .ifStatement =>
    [("test", .one expressions), ("consequent", .one statements),
      ("alternate", .optional statements)]
  | .labeledStatement => [("label", .one [.identifier]), ("body", .one statements)]
  | .breakStatement | .continueStatement => [("label", .optional [.identifier])]
  | .whileStatement | .doWhileStatement =>
    [("test", .one expressions), ("body", .one statements)]
  | .withStatement => [("object", .one expressions), ("body", .one statements)]
  | .forStatement =>
    [("init", .optional (.variableDeclaration :: expressions)),
      ("test", .optional expressions), ("update", .optional expressions),
      ("body", .one statements)]
  | .forInStatement | .forOfStatement =>
    [("left", .one (.variableDeclaration :: targets)), ("right", .one expressions),
      ("body", .one statements)]
  | .switchStatement => [("discriminant", .one expressions), ("cases", .many [.switchCase])]
  | .switchCase => [("test", .optional expressions), ("consequent", .many statements)]
  | .tryStatement =>
    [("block", .one [.blockStatement]), ("handler", .optional [.catchClause]),
      ("finalizer", .optional [.blockStatement])]
  | .catchClause => [("param", .optional targets), ("body", .one [.blockStatement])]
  | .variableDeclaration => [("declarations", .many [.variableDeclarator])]
  | .variableDeclarator => [("id", .one targets), ("init", .optional expressions)]
  | .literal | .thisExpression | .super | .templateElement | .emptyStatement
  | .debuggerStatement | .unknown => []

/-- What the field `key` of a node of this kind holds. -/
def slot (kind : Kind) (key : String) : Slot :=
  (kind.slots.lookup key).getD .plain

theorem slot_cases (kind : Kind) (key : String) :
    kind.slot key = .plain ∨ (key, kind.slot key) ∈ kind.slots := by
  rw [slot]
  cases hlookup : kind.slots.lookup key with
  | none => exact .inl rfl
  | some found =>
    obtain ⟨front, back, hslots, -⟩ := List.lookup_eq_some_iff.1 hlookup
    exact .inr (by simp [hslots])

theorem slot_params {kind : Kind} (hfunction : kind.isFunction = true) :
    kind.slot "params" = .many targets := by
  cases kind with
  | functionExpression | functionDeclaration | arrowFunctionExpression => rfl
  | _ => cases hfunction

theorem slot_body {kind : Kind} (hfunction : kind.isFunction = true) :
    kind.slot "body" = .one (.blockStatement :: expressions) := by
  cases kind with
  | functionExpression | functionDeclaration | arrowFunctionExpression => rfl
  | _ => cases hfunction

/-- The fields have different names, and none that has to be there is missing. -/
def isComplete (kind : Kind) (fields : Fields) : Bool :=
  (Fields.keys fields).Nodup &&
    kind.slots.all fun (key, slot) => slot.mayMiss || (Fields.keys fields).contains key

end Kind

namespace Value

/-- Whether a value is what the slot holds, with everything inside it. -/
def fills : Value → Slot → Bool
  | .node tag fields, slot =>
    slot.admits (Kind.ofTag tag) && (Kind.ofTag tag).isComplete fields &&
      fieldsFill (Kind.ofTag tag) fields
  | .array items, slot => slot.items?.elim false fun inner => itemsFill inner items
  | leaf, slot => slot.takes leaf
where
  itemsFill (slot : Slot) : List Value → Bool
    | [] => true
    | item :: rest => item.fills slot && itemsFill slot rest
  fieldsFill (kind : Kind) : List (String × Value) → Bool
    | [] => true
    | (key, value) :: rest => value.fills (kind.slot key) && fieldsFill kind rest

/-- A function literal that a script may hold. -/
def IsModuleFunction (module : Value) : Prop :=
  module.fills (.one [.functionExpression, .arrowFunctionExpression]) = true

instance (module : Value) : Decidable module.IsModuleFunction :=
  inferInstanceAs (Decidable (module.fills _ = true))

variable {value child : Value} {slot : Slot} {kinds : List Kind} {tag key : String}
  {fields : Fields} {items : List Value} {kind : Kind} {inner : Slot} {step : Step}
  {position : Position}

theorem itemsFill_iff :
    fills.itemsFill slot items = true ↔ ∀ item ∈ items, item.fills slot = true := by
  induction items with
  | nil => simp [fills.itemsFill]
  | cons item rest ih => simp [fills.itemsFill, ih]

theorem fieldsFill_iff :
    fills.fieldsFill kind fields = true ↔
      ∀ entry ∈ fields, entry.2.fills (kind.slot entry.1) = true := by
  induction fields with
  | nil => simp [fills.fieldsFill]
  | cons entry rest ih => simp [fills.fieldsFill, ih]

theorem fills_node_iff :
    (Value.node tag fields).fills slot = true ↔
      slot.admits (Kind.ofTag tag) = true ∧ (Kind.ofTag tag).isComplete fields = true ∧
        ∀ entry ∈ fields, entry.2.fills ((Kind.ofTag tag).slot entry.1) = true := by
  rw [fills, Bool.and_eq_true, Bool.and_eq_true, fieldsFill_iff, and_assoc]

theorem fills_array_iff :
    (Value.array items).fills slot = true ↔
      ∃ inner, slot.items? = some inner ∧ ∀ item ∈ items, item.fills inner = true := by
  rw [fills]
  cases slot.items? with
  | none => simp
  | some inner => simp [itemsFill_iff]

theorem mem_fields_iff (hfills : (Value.node tag fields).fills slot = true) :
    (key, value) ∈ fields ↔ Fields.get? fields key = some value := by
  have hcomplete := (fills_node_iff.1 hfills).2.1
  rw [Kind.isComplete, Bool.and_eq_true, decide_eq_true_eq] at hcomplete
  exact ⟨Fields.get?_of_mem hcomplete.1, Fields.mem_of_get?⟩

theorem fills_field (hfills : (Value.node tag fields).fills slot = true)
    (hget : Fields.get? fields key = some value) :
    value.fills ((Kind.ofTag tag).slot key) = true :=
  (fills_node_iff.1 hfills).2.2 _ (Fields.mem_of_get? hget)

/-- A field that may not be missing is there. -/
theorem exists_field (hfills : (Value.node tag fields).fills slot = true)
    (hkind : Kind.ofTag tag = kind) (hslot : kind.slot key = inner)
    (hneeded : inner.mayMiss = false) :
    ∃ value, Fields.get? fields key = some value ∧ value.fills inner = true := by
  have hcomplete := (fills_node_iff.1 hfills).2.1
  rw [Kind.isComplete, Bool.and_eq_true, List.all_eq_true, hkind] at hcomplete
  have hentry : (key, inner) ∈ kind.slots := by
    rcases kind.slot_cases key with hplain | hentry
    · rw [← hslot, hplain] at hneeded
      cases hneeded
    · rwa [hslot] at hentry
  have hthere : (inner.mayMiss || (Fields.keys fields).contains key) = true := hcomplete.2 _ hentry
  rw [hneeded, Bool.false_or, List.contains_iff_mem, ← Fields.get?_isSome_iff] at hthere
  obtain ⟨value, hget⟩ := Option.isSome_iff_exists.1 hthere
  refine ⟨value, hget, ?_⟩
  rw [← hslot, ← hkind]
  exact fills_field hfills hget

/-- A slot for a node is filled by a node of one of its kinds. -/
theorem exists_node_of_fills (hfills : value.fills (.one kinds) = true) :
    ∃ tag fields, value = .node tag fields ∧ Kind.ofTag tag ∈ kinds := by
  cases value with
  | node tag fields => exact ⟨tag, fields, rfl, List.contains_iff_mem.1 (fills_node_iff.1 hfills).1⟩
  | array items => simp [fills_array_iff, Slot.items?] at hfills
  | _ => simp [fills, Slot.takes] at hfills

/-- A slot for a list of nodes is filled by an array. -/
theorem exists_items_of_fills (hfills : value.fills slot = true)
    (hinner : slot.items? = some inner) (hnode : slot ≠ .plain) :
    ∃ items, value = .array items ∧ ∀ item ∈ items, item.fills inner = true := by
  cases value with
  | node tag fields =>
    have hadmits := (fills_node_iff.1 hfills).1
    cases slot <;> simp [Slot.admits, Slot.items?] at hadmits hinner
  | array items =>
    obtain ⟨other, hother, hitems⟩ := fills_array_iff.1 hfills
    cases hinner.symm.trans hother
    exact ⟨items, rfl, hitems⟩
  | _ => cases slot <;> simp [fills, Slot.takes, Slot.items?] at hfills hinner hnode

/-- A slot may be exchanged for one that admits more kinds. -/
theorem fills_optional_of_subset {others : List Kind} (hsubset : kinds ⊆ others)
    (hfills : value.fills (.optional kinds) = true ∨ value.fills (.one kinds) = true) :
    value.fills (.optional others) = true := by
  cases value with
  | node tag fields =>
    simp only [fills_node_iff, Slot.admits, List.contains_iff_mem] at hfills ⊢
    rcases hfills with ⟨hkind, hrest⟩ | ⟨hkind, hrest⟩
    · exact ⟨hsubset hkind, hrest⟩
    · exact ⟨hsubset hkind, hrest⟩
  | array items => simp [fills_array_iff, Slot.items?] at hfills
  | null => rfl
  | _ => simp [fills, Slot.takes] at hfills

/-- Every value inside a well-formed one is well formed. -/
theorem fills_child (hfills : value.fills slot = true) (hchild : value.child? step = some child) :
    ∃ inner, child.fills inner = true := by
  cases value with
  | node tag fields =>
    cases step with
    | item index => simp [child?] at hchild
    | field key => exact ⟨_, fills_field hfills hchild⟩
  | array items =>
    cases step with
    | item index =>
      obtain ⟨inner, -, hitems⟩ := fills_array_iff.1 hfills
      exact ⟨inner, hitems child (List.mem_of_getElem? hchild)⟩
    | field key => simp [child?] at hchild
  | _ => simp [child?] at hchild

theorem fills_at? (hfills : value.fills slot = true) (hat : value.at? position = some child) :
    ∃ inner, child.fills inner = true := by
  induction position generalizing value slot with
  | nil =>
    cases hat
    exact ⟨slot, hfills⟩
  | cons step rest ih =>
    obtain ⟨inside, hinside, hrest⟩ := Option.bind_eq_some_iff.1 hat
    obtain ⟨inner, hinner⟩ := fills_child hfills hinside
    exact ih hinner hrest

/-- Where a slot holds no nodes there are none further inside either. -/
theorem kind_of_fills_bare (hbare : slot.kinds = []) (hfills : value.fills slot = true)
    (hat : value.at? position = some child) : child.kind = .unknown := by
  induction position generalizing value slot with
  | nil =>
    cases hat
    cases child with
    | node tag fields =>
      have hkind := Slot.mem_kinds_of_admits (fills_node_iff.1 hfills).1
      simp [hbare] at hkind
    | _ => rfl
  | cons step rest ih =>
    obtain ⟨inside, hinside, hrest⟩ := Option.bind_eq_some_iff.1 hat
    cases value with
    | node tag fields =>
      have hkind := Slot.mem_kinds_of_admits (fills_node_iff.1 hfills).1
      simp [hbare] at hkind
    | array items =>
      obtain ⟨inner, hinner, hitems⟩ := fills_array_iff.1 hfills
      cases step with
      | item index =>
        exact ih (Slot.kinds_of_items? hinner ▸ hbare)
          (hitems inside (List.mem_of_getElem? hinside)) hrest
      | field key => simp [child?] at hinside
    | _ => simp [child?] at hinside

/-- Identifiers and literals have no nodes inside. -/
theorem kind_of_below_bare {rest : Position} (hfills : (Value.node tag fields).fills slot = true)
    (hbare : ∀ entry ∈ (Kind.ofTag tag).slots, entry.2.kinds = [])
    (hat : (Value.node tag fields).at? (step :: rest) = some child) : child.kind = .unknown := by
  obtain ⟨inside, hinside, hrest⟩ := Option.bind_eq_some_iff.1 hat
  cases step with
  | item index => simp [child?] at hinside
  | field key =>
    refine kind_of_fills_bare ?_ (fills_field hfills hinside) hrest
    rcases (Kind.ofTag tag).slot_cases key with hplain | hentry
    · rw [hplain]
      rfl
    · exact hbare _ hentry

end Value

end Debundle
