import Debundle.Tree.Kind
import Debundle.Tree.Part
import Mathlib.Data.List.Infix

/-!
# Positions in a tree

A position is the way from the root of a tree to a value inside it.  Two trees of the
same outline have the same positions, so a pass that changes a tree can be described by
the positions at which the tree before and the tree after it differ.
-/

namespace Debundle

/-- A step from a value to one of its children. -/
inductive Step where
  | item (index : Nat)
  | field (key : String)
  deriving DecidableEq

/-- The way from the root of a tree to a value inside it. -/
abbrev Position := List Step

/-- A value together with a step that leaves it. -/
structure Edge where
  parent : Value
  step : Step

/-- What is seen of a value without looking at its children.  A leaf is seen whole. -/
inductive Outline where
  | array (length : Nat)
  | node (tag : String) (keys : List String)
  | leaf (value : Value)

namespace Value

def outline : Value → Outline
  | .array items => .array items.length
  | .node tag fields => .node tag (Fields.keys fields)
  | value => .leaf value

def child? : Value → Step → Option Value
  | .array items, .item index => items[index]?
  | .node _ fields, .field key => Fields.get? fields key
  | _, _ => none

/-- The value at a position. -/
def at? : Value → Position → Option Value
  | value, [] => some value
  | value, step :: rest => (value.child? step).bind fun child => child.at? rest

/-- The way to `position` leaves the value at `above` by the step of `edge`. -/
def Crosses (root : Value) (position above : Position) (edge : Edge) : Prop :=
  root.at? above = some edge.parent ∧ ∃ below, position = above ++ edge.step :: below

/-- An identifier of this name stands at the position. -/
def Names (root : Value) (position : Position) (name : String) : Prop :=
  ∃ node, root.at? position = some node ∧ node.kind = .identifier ∧
    node.lookup "name" = some (.text name)

/-- The tree `after` is the tree `before` with the values that `change` gives at its
positions.  At all other positions that do not lie inside a changed value the two trees
look the same. -/
structure ChangedAt (change : Position → Value → Prop) (before after : Value) : Prop where
  changed : ∀ position value, change position value → after.at? position = some value
  unchanged : ∀ position,
    (∀ above value, above <+: position → ¬ change above value) →
      (after.at? position).map outline = (before.at? position).map outline

@[simp]
theorem at?_nil (value : Value) : value.at? [] = some value := rfl

@[simp]
theorem at?_cons (value : Value) (step : Step) (rest : Position) :
    value.at? (step :: rest) = (value.child? step).bind fun child => child.at? rest := rfl

theorem at?_append (value : Value) (front back : Position) :
    value.at? (front ++ back) = (value.at? front).bind fun child => child.at? back := by
  induction front generalizing value with
  | nil => simp
  | cons step rest ih =>
    cases hchild : value.child? step with
    | none => simp [hchild]
    | some child => simp [hchild, ih]

@[simp]
theorem child?_node (tag : String) (fields : Fields) (key : String) :
    (Value.node tag fields).child? (.field key) = Fields.get? fields key := rfl

@[simp]
theorem child?_array (items : List Value) (index : Nat) :
    (Value.array items).child? (.item index) = items[index]? := rfl

@[simp]
theorem lookup_node (tag : String) (fields : Fields) (key : String) :
    (Value.node tag fields).lookup key = Fields.get? fields key := rfl

theorem lookup_eq_child? {value child : Value} {key : String}
    (hchild : value.child? (.field key) = some child) :
    value.lookup key = some child := by
  cases value <;> simp [child?] at hchild
  exact hchild

theorem size_lt_of_child? {value child : Value} {step : Step}
    (hchild : value.child? step = some child) : child.size < value.size := by
  cases value with
  | array items =>
    cases step with
    | item index => exact size_lt_of_mem_array (List.mem_of_getElem? hchild)
    | field key => simp [child?] at hchild
  | node tag fields =>
    cases step with
    | item index => simp [child?] at hchild
    | field key => exact size_lt_of_lookup (lookup_eq_child? hchild)
  | _ => simp [child?] at hchild

theorem not_crosses_nil (root : Value) (above : Position) (edge : Edge) :
    ¬ root.Crosses [] above edge := by
  rintro ⟨-, below, heq⟩
  simp at heq

/-- A way crosses its first edge at the root, and the others inside the child. -/
theorem crosses_cons_iff {root : Value} {step : Step} {rest above : Position}
    {edge : Edge} :
    root.Crosses (step :: rest) above edge ↔
      (above = [] ∧ edge = ⟨root, step⟩) ∨
        ∃ child inner, root.child? step = some child ∧ above = step :: inner ∧
          child.Crosses rest inner edge := by
  obtain ⟨parent, taken⟩ := edge
  constructor
  · rintro ⟨hat, below, heq⟩
    cases above with
    | nil =>
      simp only [List.nil_append, List.cons.injEq] at heq
      simp only [at?_nil, Option.some.injEq] at hat
      exact .inl ⟨rfl, by rw [heq.1, hat]⟩
    | cons first inner =>
      simp only [List.cons_append, List.cons.injEq] at heq
      obtain ⟨rfl, hrest⟩ := heq
      simp only [at?_cons, Option.bind_eq_some_iff] at hat
      obtain ⟨child, hchild, hinner⟩ := hat
      exact .inr ⟨child, inner, hchild, rfl, hinner, below, hrest⟩
  · rintro (⟨rfl, hedge⟩ | ⟨child, inner, hchild, rfl, hinner, below, hrest⟩)
    · simp only [Edge.mk.injEq] at hedge
      obtain ⟨rfl, rfl⟩ := hedge
      exact ⟨rfl, rest, rfl⟩
    · exact ⟨by simp [hchild, hinner], below, by simp [hrest]⟩

end Value

end Debundle
