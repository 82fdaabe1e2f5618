import Debundle.Tree.Fault

/-!
# Parts of a value

Passes reach the values inside a value by field name, not by pattern matching, so
each reading function returns what it found together with the reason why it is
smaller.  A recursion over trees may then call itself on every `Part` that it can
get hold of.

Reading never fails on a node whose field is there.  On other values it fails with
the fault that says what was wrong.
-/

namespace Debundle

namespace Value

/-- The value of a field of a node or a mapping. -/
def lookup (value : Value) (key : String) : Option Value :=
  value.fields?.bind fun fields => fields.get? key

theorem size_lt_of_mem_array {item : Value} {items : List Value} (hmem : item ∈ items) :
    item.size < (Value.array items).size := by
  have hsum : item.size ≤ size.itemsSize items := by
    induction items with
    | nil => cases hmem
    | cons head rest ih =>
      simp only [size.itemsSize]
      rcases List.mem_cons.1 hmem with rfl | hrest
      · omega
      · have := ih hrest
        omega
  simp only [size]
  omega

theorem size_le_fieldsSize {fields : Fields} {key : String} {value : Value}
    (hget : fields.get? key = some value) : value.size ≤ size.fieldsSize fields := by
  induction fields with
  | nil => cases hget
  | cons entry rest ih =>
    obtain ⟨name, held⟩ := entry
    simp only [Fields.get?, List.lookup_cons] at hget
    simp only [size.fieldsSize]
    split at hget
    · cases hget
      omega
    · have := ih hget
      omega

theorem size_lt_of_lookup {whole value : Value} {key : String}
    (hget : whole.lookup key = some value) : value.size < whole.size := by
  cases whole <;> simp only [lookup, fields?, Option.bind_none, Option.bind_some] at hget
  case mapping fields =>
    have := size_le_fieldsSize hget
    simp only [size]
    omega
  case node tag fields =>
    have := size_le_fieldsSize hget
    simp only [size]
    omega
  all_goals cases hget

end Value

/-- A value that lies strictly inside `whole`. -/
structure Part (whole : Value) where
  value : Value
  smaller : value.size < whole.size

namespace Value

/-- The field `key`, if the value is a record and has it. -/
def part? (whole : Value) (key : String) : Option (Part whole) :=
  (whole.lookup key).attach.map fun found => ⟨found.val, size_lt_of_lookup found.property⟩

/-- The field `key`, if it is there and not null. -/
def given? (whole : Value) (key : String) : Option (Part whole) :=
  (whole.part? key).filter fun part => !part.value.isNull

/-- The field `key`, which has to be there. -/
def require (whole : Value) (key : String) : Except Fault (Part whole) :=
  match whole.part? key with
  | some part => .ok part
  | none => .error (if whole.fields?.isSome then .missingField key
      else .notSubscriptable whole.shape)

/-- Whether the field `key` is there and counts as present. -/
def flag (whole : Value) (key : String) : Bool :=
  (whole.lookup key).any Value.isTruthy

/-- Refuses a value that has no fields at all. -/
def asRecord (value : Value) : Except Fault Unit :=
  if value.fields?.isSome then .ok () else .error (.noFields value.shape)

/-- The values that going through a value yields: the items of an array, the
characters of a text, the names of a mapping. -/
def elements : Value → Except Fault (List Value)
  | .array items => .ok items
  | .text value => .ok (value.toList.map fun char => .text (String.singleton char))
  | .mapping fields => .ok (fields.map fun (key, _) => .text key)
  | .node .. => .error (.missingPosition 0)
  | value => .error (.notIterable value.shape)

/-- The number of values that going through a value yields. -/
def length : Value → Except Fault Nat
  | .array items => .ok items.length
  | .text value => .ok value.length
  | .mapping fields => .ok fields.length
  | value => .error (.noLength value.shape)

theorem size_le_of_mem_elements {value item : Value} {items : List Value}
    (helements : value.elements = .ok items) (hmem : item ∈ items) :
    item.size ≤ value.size := by
  cases value <;> simp only [elements, Except.ok.injEq, reduceCtorEq] at helements
  case array held =>
    subst helements
    exact Nat.le_of_lt (size_lt_of_mem_array hmem)
  case text held =>
    subst helements
    obtain ⟨char, _, rfl⟩ := List.mem_map.1 hmem
    simp only [size]
    omega
  case mapping fields =>
    subst helements
    obtain ⟨entry, _, rfl⟩ := List.mem_map.1 hmem
    simp only [size]
    omega

/-- The item at a position of a sequence. -/
def item (value : Value) (position : Nat) : Except Fault Value :=
  match value with
  | .array items =>
    match items[position]? with
    | some item => .ok item
    | none => .error .arrayIndexOutOfRange
  | .text content =>
    match content.toList[position]? with
    | some char => .ok (.text (String.singleton char))
    | none => .error .textIndexOutOfRange
  | .mapping _ | .node .. => .error (.missingPosition position)
  | value => .error (.notSubscriptable value.shape)

theorem size_le_of_item {value item : Value} {position : Nat}
    (hitem : value.item position = .ok item) : item.size ≤ value.size := by
  cases value <;> simp only [Value.item] at hitem
  case array items =>
    split at hitem
    · rename_i found hfound
      cases hitem
      exact Nat.le_of_lt (size_lt_of_mem_array (List.mem_of_getElem? hfound))
    · cases hitem
  case text content =>
    split at hitem
    · cases hitem
      simp only [size]
      omega
    · cases hitem
  all_goals cases hitem

end Value

namespace Part

variable {whole : Value}

/-- A part of a part. -/
def within (outer : Part whole) (inner : Part outer.value) : Part whole :=
  ⟨inner.value, Nat.lt_trans inner.smaller outer.smaller⟩

/-- The field `key`, if it is there and not null; fails on a value without fields. -/
def given? (part : Part whole) (key : String) : Except Fault (Option (Part whole)) := do
  part.value.asRecord
  return (part.value.given? key).map part.within

def require (part : Part whole) (key : String) : Except Fault (Part whole) := do
  return part.within (← part.value.require key)

/-- Whether the field `key` counts as present; fails on a value without fields. -/
def flag (part : Part whole) (key : String) : Except Fault Bool := do
  part.value.asRecord
  return part.value.flag key

/-- The values that going through the part yields. -/
def elements (part : Part whole) : Except Fault (List (Part whole)) :=
  match helements : part.value.elements with
  | .ok items => .ok (items.attach.map fun item =>
    ⟨item.val, Nat.lt_of_le_of_lt
      (Value.size_le_of_mem_elements helements item.property) part.smaller⟩)
  | .error fault => .error fault

/-- The item at a position of the part. -/
def item (part : Part whole) (position : Nat) : Except Fault (Part whole) :=
  match hitem : part.value.item position with
  | .ok item => .ok ⟨item, Nat.lt_of_le_of_lt (Value.size_le_of_item hitem) part.smaller⟩
  | .error fault => .error fault

end Part

/-- The values of the list in the field `key`.  A field that does not count as present
stands for the empty list. -/
def Value.listAt (whole : Value) (key : String) : Except Fault (List (Part whole)) :=
  match whole.part? key with
  | some part => if part.value.isTruthy then part.elements else .ok []
  | none => .ok []

/-- The values of the list in the field `key` of a part; fails on a part without
fields. -/
def Part.listAt {whole : Value} (part : Part whole) (key : String) :
    Except Fault (List (Part whole)) := do
  part.value.asRecord
  return (← part.value.listAt key).map part.within

end Debundle
