import Debundle.Proofs.Script.Grammar
import Debundle.Proofs.Tree.Equality

/-!
# What the language binds

The names that a pattern or a declaration binds, and the names that the statements of a
function declare for the whole function.  A `var` or a function declaration counts for the
function in whose statements it stands, however deep in blocks and loops, but not for the
functions around that one.
-/

namespace Debundle

namespace Kind

/-- The field of a node of this kind that holds what the node binds. -/
def bindingField? : Kind → Option String
  | .assignmentPattern => some "left"
  | .restElement => some "argument"
  | .arrayPattern => some "elements"
  | .objectPattern => some "properties"
  | .property => some "value"
  | .variableDeclarator | .functionDeclaration => some "id"
  | .variableDeclaration => some "declarations"
  | _ => none

/-- The fields of a node of this kind that hold statements of the same function. -/
def statementFields : Kind → List String
  | .blockStatement | .program | .labeledStatement | .whileStatement | .doWhileStatement
  | .withStatement | .catchClause => ["body"]
  | .ifStatement => ["consequent", "alternate"]
  | .forStatement => ["init", "body"]
  | .forInStatement | .forOfStatement => ["left", "body"]
  | .switchStatement => ["cases"]
  | .switchCase => ["consequent"]
  | .tryStatement => ["block", "handler", "finalizer"]
  | _ => []

/-- Whether a node of this kind may declare a name for the function it stands in. -/
def mayHoist (kind : Kind) : Bool :=
  kind = .variableDeclaration || kind = .functionDeclaration || !kind.statementFields.isEmpty

end Kind

namespace Value

/-- Whether a pattern or a declaration binds the name.  An array binds what its items
bind. -/
def binds (name : String) : Value → Bool
  | .array items => itemsBind name items
  | .node tag fields =>
    if Kind.ofTag tag = .identifier then Fields.get? fields "name" = some (.text name)
    else (Kind.ofTag tag).bindingField?.elim false fun key => fieldBinds name key fields
  | _ => false
where
  itemsBind (name : String) : List Value → Bool
    | [] => false
    | item :: rest => item.binds name || itemsBind name rest
  fieldBinds (name key : String) : List (String × Value) → Bool
    | [] => false
    | (other, value) :: rest =>
      if key = other then value.binds name else fieldBinds name key rest

/-- Whether statements declare the name for the function that they are part of. -/
def hoists (name : String) : Value → Bool
  | .array items => itemsHoist name items
  | .node tag fields =>
    match Kind.ofTag tag with
    | .variableDeclaration =>
      Fields.get? fields "kind" = some (.text "var") && (Value.node tag fields).binds name
    | .functionDeclaration => (Value.node tag fields).binds name
    | kind => kind.statementFields.any fun key => fieldHoists name key fields
  | _ => false
where
  itemsHoist (name : String) : List Value → Bool
    | [] => false
    | item :: rest => item.hoists name || itemsHoist name rest
  fieldHoists (name key : String) : List (String × Value) → Bool
    | [] => false
    | (other, value) :: rest =>
      if key = other then value.hoists name else fieldHoists name key rest

/-- Whether a function inside the value declares the name in its own body.  What stands
in a variable declaration is left out. -/
def hoistsInside (name : String) : Value → Bool
  | .array items => itemsHoistInside name items
  | .node tag fields =>
    Kind.ofTag tag ≠ .variableDeclaration &&
      ((Kind.ofTag tag).isFunction && (Fields.get? fields "body").any (hoists name) ||
        fieldsHoistInside name fields)
  | _ => false
where
  itemsHoistInside (name : String) : List Value → Bool
    | [] => false
    | item :: rest => item.hoistsInside name || itemsHoistInside name rest
  fieldsHoistInside (name : String) : List (String × Value) → Bool
    | [] => false
    | (_, value) :: rest => value.hoistsInside name || fieldsHoistInside name rest

variable {name key tag : String} {value child : Value} {fields : Fields} {slot : Slot}

/-- A test that goes through a list item by item. -/
theorem eq_any_items {scan : List Value → Bool} {test : Value → Bool} (hnil : scan [] = false)
    (hcons : ∀ item rest, scan (item :: rest) = (test item || scan rest))
    (items : List Value) : scan items = items.any test := by
  induction items with
  | nil => rw [hnil, List.any_nil]
  | cons item rest ih => rw [hcons, ih, List.any_cons]

/-- A test that goes through fields until it finds one of the name `key`. -/
theorem eq_any_get? {scan : Fields → Bool} {test : Value → Bool} (hnil : scan [] = false)
    (hcons : ∀ other value rest,
      scan ((other, value) :: rest) = if key = other then test value else scan rest)
    (fields : Fields) : scan fields = (Fields.get? fields key).any test := by
  induction fields with
  | nil => rw [hnil]; rfl
  | cons entry rest ih =>
    obtain ⟨other, value⟩ := entry
    rw [hcons, Fields.get?, List.lookup_cons]
    by_cases hkey : key = other
    · simp [hkey]
    · rw [if_neg hkey, beq_false_of_ne hkey, ih, Fields.get?]

@[simp]
theorem binds_array (items : List Value) :
    (Value.array items).binds name = items.any (binds name) :=
  eq_any_items rfl (fun _ _ => rfl) items

theorem binds_identifier (hkind : Kind.ofTag tag = .identifier) :
    (Value.node tag fields).binds name = true ↔
      Fields.get? fields "name" = some (.text name) := by
  rw [binds, if_pos hkind, decide_eq_true_eq]

/-- A node binds what its binding field binds. -/
theorem binds_field (hfield : (Kind.ofTag tag).bindingField? = some key) :
    (Value.node tag fields).binds name = (Fields.get? fields key).any (binds name) := by
  have hkind : Kind.ofTag tag ≠ .identifier := by
    intro heq
    simp [heq, Kind.bindingField?] at hfield
  have hscan : binds.fieldBinds name key fields = (Fields.get? fields key).any (binds name) :=
    eq_any_get? rfl (fun _ _ _ => rfl) fields
  rw [binds, if_neg hkind, hfield, Option.elim_some, hscan]

theorem binds_node (hfield : (Kind.ofTag tag).bindingField? = some key)
    (hget : Fields.get? fields key = some value) :
    (Value.node tag fields).binds name = value.binds name := by
  rw [binds_field hfield, hget, Option.any_some]

theorem binds_eq_false (hkind : Kind.ofTag tag ≠ .identifier)
    (hfield : (Kind.ofTag tag).bindingField? = none) :
    (Value.node tag fields).binds name = false := by
  rw [binds, if_neg hkind, hfield, Option.elim_none]

@[simp]
theorem hoists_array (items : List Value) :
    (Value.array items).hoists name = items.any (hoists name) :=
  eq_any_items rfl (fun _ _ => rfl) items

theorem hoists_variableDeclaration (hkind : Kind.ofTag tag = .variableDeclaration) :
    (Value.node tag fields).hoists name = true ↔
      Fields.get? fields "kind" = some (.text "var") ∧
        (Value.node tag fields).binds name = true := by
  simp [hoists, hkind]

theorem hoists_functionDeclaration (hkind : Kind.ofTag tag = .functionDeclaration) :
    (Value.node tag fields).hoists name = (Value.node tag fields).binds name := by
  simp [hoists, hkind]

theorem hoists_node (hvariable : Kind.ofTag tag ≠ .variableDeclaration)
    (hfunction : Kind.ofTag tag ≠ .functionDeclaration) :
    (Value.node tag fields).hoists name = true ↔
      ∃ key ∈ (Kind.ofTag tag).statementFields, ∃ value,
        Fields.get? fields key = some value ∧ value.hoists name = true := by
  have hfields : ∀ key, hoists.fieldHoists name key fields =
      (Fields.get? fields key).any (hoists name) :=
    fun key => eq_any_get? rfl (fun _ _ _ => rfl) fields
  rw [hoists]
  split
  · contradiction
  · contradiction
  · simp only [hfields, List.any_eq_true, Option.any_eq_true]

theorem hoists_block (hkind : Kind.ofTag tag = .blockStatement) :
    (Value.node tag fields).hoists name = (Fields.get? fields "body").any (hoists name) := by
  rw [Bool.eq_iff_iff, hoists_node (by simp [hkind]) (by simp [hkind]), hkind, Option.any_eq_true]
  simp [Kind.statementFields]

@[simp]
theorem hoistsInside_array (items : List Value) :
    (Value.array items).hoistsInside name = items.any (hoistsInside name) :=
  eq_any_items rfl (fun _ _ => rfl) items

theorem hoistsInside_node :
    (Value.node tag fields).hoistsInside name = true ↔
      Kind.ofTag tag ≠ .variableDeclaration ∧
        (((Kind.ofTag tag).isFunction = true ∧ ∃ body, Fields.get? fields "body" = some body ∧
            body.hoists name = true) ∨
          ∃ entry ∈ fields, entry.2.hoistsInside name = true) := by
  have hfields : hoistsInside.fieldsHoistInside name fields =
      fields.any fun entry => entry.2.hoistsInside name := by
    induction fields with
    | nil => rfl
    | cons entry rest ih => rw [hoistsInside.fieldsHoistInside, ih, List.any_cons]
  simp only [hoistsInside, hfields, Bool.and_eq_true, Bool.or_eq_true, decide_eq_true_eq,
    List.any_eq_true, Option.any_eq_true]

end Value

namespace Kind

/-- In the whole grammar, statements of the same function stand in the statement fields
and nowhere else. -/
theorem mem_statementFields_of_slot {kind inner : Kind} {key : String}
    (hinner : inner ∈ (kind.slot key).kinds) (hhoist : inner.mayHoist = true) :
    key ∈ kind.statementFields ∨ kind.isFunction = true ∧ key = "body" := by
  have htable : ∀ entry ∈ kind.slots, entry.2.kinds.any mayHoist = true →
      entry.1 ∈ kind.statementFields ∨ kind.isFunction = true ∧ entry.1 = "body" := by
    cases kind <;> decide
  rcases kind.slot_cases key with hplain | hentry
  · simp [hplain, Slot.kinds] at hinner
  · exact htable _ hentry (List.any_eq_true.2 ⟨inner, hinner, hhoist⟩)

end Kind

namespace Value

variable {name tag : String} {value child : Value} {fields : Fields} {slot : Slot}

theorem mayHoist_of_hoists (hhoists : (Value.node tag fields).hoists name = true) :
    (Kind.ofTag tag).mayHoist = true := by
  rw [Kind.mayHoist, Bool.or_eq_true, Bool.or_eq_true, decide_eq_true_eq, decide_eq_true_eq]
  by_cases hvariable : Kind.ofTag tag = .variableDeclaration
  · exact .inl (.inl hvariable)
  by_cases hfunction : Kind.ofTag tag = .functionDeclaration
  · exact .inl (.inr hfunction)
  obtain ⟨key, hkey, -⟩ := (hoists_node hvariable hfunction).1 hhoists
  right
  rw [Bool.not_eq_true', List.isEmpty_eq_false_iff]
  exact List.ne_nil_of_mem hkey

/-- The body of a function is a block, or it declares nothing. -/
theorem kind_of_body
    (hfills : (Value.node tag fields).fills (.one (.blockStatement :: Kind.expressions)) = true) :
    Kind.ofTag tag = .blockStatement ∨ (Kind.ofTag tag).mayHoist = false := by
  have hnot : ∀ kind ∈ Kind.expressions, kind.mayHoist = false := by decide
  have hmem := Slot.mem_kinds_of_admits (fills_node_iff.1 hfills).1
  exact (List.mem_cons.1 hmem).imp_right (hnot _)

/-- What declares a name stands where a declaration may stand. -/
theorem exists_kind_of_hoists (value : Value) {slot : Slot}
    (hfills : value.fills slot = true) (hhoists : value.hoists name = true) :
    ∃ kind ∈ slot.kinds, kind.mayHoist = true := by
  cases value with
  | node tag fields =>
    exact ⟨Kind.ofTag tag, Slot.mem_kinds_of_admits (fills_node_iff.1 hfills).1,
      mayHoist_of_hoists hhoists⟩
  | array items =>
    obtain ⟨inner, hinner, hitems⟩ := fills_array_iff.1 hfills
    rw [hoists_array, List.any_eq_true] at hhoists
    obtain ⟨item, hitem, hhoists⟩ := hhoists
    have hsmaller := size_lt_of_mem_array hitem
    rw [← Slot.kinds_of_items? hinner]
    exact exists_kind_of_hoists item (hitems item hitem) hhoists
  | _ => simp [hoists] at hhoists
termination_by value.size

/-- A child declares names for the function that its parent is part of, unless the child
is the body of a function. -/
theorem hoists_of_child {step : Step} (hfills : value.fills slot = true)
    (hchild : value.child? step = some child) (hhoists : child.hoists name = true) :
    value.hoists name = true ∨ value.kind.isFunction = true ∧ step = .field "body" := by
  cases value with
  | node tag fields =>
    cases step with
    | item index => simp [child?] at hchild
    | field key =>
      obtain ⟨kind, hkind, hhoist⟩ :=
        exists_kind_of_hoists child (fills_field hfills hchild) hhoists
      rcases Kind.mem_statementFields_of_slot hkind hhoist with hkey | ⟨hfunction, rfl⟩
      · refine .inl ((hoists_node ?_ ?_).2 ⟨key, hkey, child, hchild, hhoists⟩)
        · intro heq
          simp [heq, Kind.statementFields] at hkey
        · intro heq
          simp [heq, Kind.statementFields] at hkey
      · exact .inr ⟨hfunction, rfl⟩
  | array items =>
    cases step with
    | item index =>
      rw [hoists_array, List.any_eq_true]
      exact .inl ⟨child, List.mem_of_getElem? hchild, hhoists⟩
    | field key => simp [child?] at hchild
  | _ => simp [child?] at hchild

end Value

end Debundle
