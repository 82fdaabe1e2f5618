import Debundle.Proofs.Script.Grammar
import Debundle.Proofs.Script.Mirror

/-!
# Scripts in full detail

The grammar says which nodes a script is made of, and leaves open what is written in them.
To print a script more is needed: operators are texts, a literal has a text or a value that
has one, and where the grammar is generous the language is not.
-/

namespace Debundle

namespace Kind

/-- The kinds of expressions that have an operator. -/
def operations : List Kind :=
  [.unaryExpression, .updateExpression, .binaryExpression, .logicalExpression,
    .assignmentExpression]

/-- The kinds of nodes that are printed as expressions. -/
def phrases : List Kind :=
  .spreadElement :: (expressions ++ targets)

theorem mem_of_all {kind : Kind} {kinds others : List Kind}
    (hkinds : kinds.all others.contains = true) (hkind : kind ∈ kinds) : kind ∈ others :=
  List.contains_iff_mem.1 (List.all_eq_true.1 hkinds kind hkind)

end Kind

namespace Value

open Attempt Kind

def isText : Value → Bool
  | .text _ => true
  | _ => false

theorem exists_text {value : Value} (htext : value.isText = true) :
    ∃ text, value = .text text := by
  cases value with
  | text content => exact ⟨content, rfl⟩
  | _ => cases htext

/-- Whether a literal of this value can be written without knowing how it was written. -/
def isSpelled : Value → Bool
  | .null | .bool _ | .text _ => true
  | _ => false

/-- Whether a property has a function for its value, whose text follows the key. -/
def isKeyedFunction (property : Value) : Bool :=
  property.accessor?.isSome || property.flag "method"

/-- What a node is required to have beside what the grammar says. -/
def hasDetail (node : Value) : Bool :=
  match node.kind with
  | .unaryExpression | .updateExpression | .binaryExpression | .logicalExpression
  | .assignmentExpression =>
    (node.lookup "operator").any fun operator => operator.isText && operator.isTruthy
  | .literal =>
    (node.lookup "raw").any isText || ((node.lookup "value").getD .null).isSpelled
  | .functionExpression | .functionDeclaration =>
    (node.lookup "body").any fun body => body.kind == .blockStatement
  | .memberExpression =>
    node.flag "computed" || (node.lookup "property").any fun name => name.kind == .identifier
  | .property =>
    !node.isKeyedFunction ||
      (node.lookup "value").any fun value => value.kind == .functionExpression
  | .templateElement => ((node.lookup "value").bind fun held => held.lookup "raw").any isText
  | _ => true

/-- Every node inside a value has what it is required to have. -/
def isDetailed : Value → Bool
  | .node tag fields => (Value.node tag fields).hasDetail && fieldsDetailed fields
  | .array items => itemsDetailed items
  | _ => true
where
  itemsDetailed : List Value → Bool
    | [] => true
    | item :: rest => item.isDetailed && itemsDetailed rest
  fieldsDetailed : List (String × Value) → Bool
    | [] => true
    | (_, value) :: rest => value.isDetailed && fieldsDetailed rest

/-- The value is what the slot holds, in full detail. -/
structure Printable (slot : Slot) (value : Value) : Prop where
  fills : value.fills slot = true
  detailed : value.isDetailed = true

theorem itemsDetailed_iff {items : List Value} :
    isDetailed.itemsDetailed items = true ↔ ∀ item ∈ items, item.isDetailed = true := by
  induction items with
  | nil => simp [isDetailed.itemsDetailed]
  | cons item rest ih => simp [isDetailed.itemsDetailed, ih]

theorem fieldsDetailed_iff {fields : Fields} :
    isDetailed.fieldsDetailed fields = true ↔ ∀ entry ∈ fields, entry.2.isDetailed = true := by
  induction fields with
  | nil => simp [isDetailed.fieldsDetailed]
  | cons entry rest ih => simp [isDetailed.fieldsDetailed, ih]

namespace Printable

variable {value child : Value} {slot inner : Slot} {kind : Kind} {kinds others : List Kind}
  {key : String}

theorem exists_node (hvalue : value.Printable (.one kinds)) :
    ∃ tag fields, value = .node tag fields ∧ Kind.ofTag tag ∈ kinds :=
  exists_node_of_fills hvalue.fills

theorem kind_mem (hvalue : value.Printable (.one kinds)) : value.kind ∈ kinds := by
  obtain ⟨tag, fields, rfl, hkind⟩ := hvalue.exists_node
  exact hkind

theorem asRecord (hvalue : value.Printable (.one kinds)) : value.asRecord = .ok () := by
  obtain ⟨tag, fields, rfl, -⟩ := hvalue.exists_node
  rfl

/-- The node may stand wherever its kind may. -/
theorem refit (hvalue : value.Printable (.one kinds)) (hkind : value.kind ∈ others) :
    value.Printable (.one others) := by
  obtain ⟨tag, fields, rfl, -⟩ := hvalue.exists_node
  obtain ⟨-, hrest⟩ := fills_node_iff.1 hvalue.fills
  exact ⟨fills_node_iff.2 ⟨List.contains_iff_mem.2 hkind, hrest⟩, hvalue.detailed⟩

theorem exists_items (hvalue : value.Printable (.many kinds)) :
    ∃ items, value = .array items ∧ ∀ item ∈ items, item.Printable (.one kinds) := by
  obtain ⟨items, rfl, hfills⟩ := exists_items_of_fills hvalue.fills rfl Slot.noConfusion
  have hdetailed := hvalue.detailed
  rw [isDetailed, itemsDetailed_iff] at hdetailed
  exact ⟨items, rfl, fun item hitem => ⟨hfills item hitem, hdetailed item hitem⟩⟩

theorem given (hvalue : value.Printable (.optional kinds)) (hnull : value.isNull = false) :
    value.Printable (.one kinds) := by
  refine ⟨?_, hvalue.detailed⟩
  have hfills := hvalue.fills
  cases value with
  | node tag fields => rwa [fills_node_iff] at hfills ⊢
  | array items => simp [fills_array_iff, Slot.items?] at hfills
  | null => cases hnull
  | _ => simp [Value.fills, Slot.takes] at hfills

variable (hvalue : value.Printable slot)

include hvalue

theorem hasDetail (hnode : value.kind ≠ .unknown) : value.hasDetail = true := by
  have hdetailed := hvalue.detailed
  cases value with
  | node tag fields =>
    rw [isDetailed, Bool.and_eq_true] at hdetailed
    exact hdetailed.1
  | _ => exact absurd rfl hnode

/-- An operator is a text, and not an empty one. -/
theorem operator_yields (hkind : value.kind ∈ operations) :
    Yields (fun operator => ∃ word, operator.value = .text word ∧ word.toList ≠ [])
      (value.require "operator") := by
  have hdetail : ((value.lookup "operator").any fun operator =>
      operator.isText && operator.isTruthy) = true := by
    simp only [operations, List.mem_cons, List.not_mem_nil, or_false] at hkind
    have hdetail := hvalue.hasDetail (by rintro hunknown; simp [hunknown] at hkind)
    rcases hkind with hkind | hkind | hkind | hkind | hkind <;>
      simpa only [Value.hasDetail, hkind] using hdetail
  obtain ⟨operator, hlookup, hfilled⟩ := (Option.any_eq_true _ _).1 hdetail
  obtain ⟨part, hpart, rfl⟩ := exists_part hlookup
  refine ⟨part, require_eq_ok_iff.2 hpart, ?_⟩
  rw [Bool.and_eq_true] at hfilled
  obtain ⟨word, hword⟩ := exists_text hfilled.1
  refine ⟨word, hword, ?_⟩
  simpa [hword, isTruthy, String.isEmpty_iff] using hfilled.2

/-- The text of a piece of a template as it was written. -/
theorem raw_yields (hkind : value.kind = .templateElement) :
    Yields (fun held => Yields (fun raw => raw.value.isText = true) (held.value.require "raw"))
      (value.require "value") := by
  have hdetail := hvalue.hasDetail (by simp [hkind])
  simp only [Value.hasDetail, hkind] at hdetail
  obtain ⟨raw, hraw, htext⟩ := (Option.any_eq_true _ _).1 hdetail
  obtain ⟨held, hheld, hlookup⟩ := Option.bind_eq_some_iff.1 hraw
  obtain ⟨part, hpart, rfl⟩ := exists_part hheld
  obtain ⟨rawPart, hrawPart, rfl⟩ := exists_part hlookup
  exact ⟨part, require_eq_ok_iff.2 hpart, rawPart, require_eq_ok_iff.2 hrawPart, htext⟩

variable (hkind : value.kind = kind)

include hkind

/-- What a field holds that the grammar knows. -/
theorem field (hslot : kind.slot key = inner) (hplain : inner ≠ .plain)
    (hlookup : value.lookup key = some child) : child.Printable inner := by
  subst hslot hkind
  have hdetailed := hvalue.detailed
  cases value with
  | node tag fields =>
    rw [isDetailed, Bool.and_eq_true, fieldsDetailed_iff] at hdetailed
    exact ⟨fills_field hvalue.fills hlookup, hdetailed.2 _ (Fields.mem_of_get? hlookup)⟩
  | _ => exact absurd rfl hplain

theorem exists_field (hslot : kind.slot key = inner) (hneeded : inner.mayMiss = false) :
    ∃ child, value.lookup key = some child ∧ child.Printable inner := by
  have hplain : inner ≠ .plain := by
    rintro rfl
    cases hneeded
  have hfound : ∃ child, value.lookup key = some child := by
    cases value with
    | node tag fields =>
      obtain ⟨child, hget, -⟩ := Value.exists_field hvalue.fills hkind hslot hneeded
      exact ⟨child, hget⟩
    | _ =>
      subst hslot hkind
      exact absurd rfl hplain
  obtain ⟨child, hlookup⟩ := hfound
  exact ⟨child, hlookup, hvalue.field hkind hslot hplain hlookup⟩

theorem required_yields (hslot : kind.slot key = inner) (hneeded : inner.mayMiss = false) :
    Yields (fun part => part.value.Printable inner) (value.require key) := by
  obtain ⟨child, hlookup, hchild⟩ := hvalue.exists_field hkind hslot hneeded
  obtain ⟨part, hpart, rfl⟩ := exists_part hlookup
  exact ⟨part, require_eq_ok_iff.2 hpart, hchild⟩

theorem require_yields (hslot : kind.slot key = .one kinds) :
    Yields (fun part => part.value.Printable (.one kinds)) (value.require key) :=
  hvalue.required_yields hkind hslot rfl

theorem part?_cases (hslot : kind.slot key = .optional kinds) :
    value.part? key = none ∨
      ∃ part, value.part? key = some part ∧ part.value.Printable (.optional kinds) := by
  cases hpart : value.part? key with
  | none => exact .inl rfl
  | some part =>
    exact .inr ⟨part, rfl, hvalue.field hkind hslot Slot.noConfusion (lookup_of_part? hpart)⟩

theorem given?_cases (hslot : kind.slot key = .optional kinds) :
    value.given? key = none ∨
      ∃ part, value.given? key = some part ∧ part.value.Printable (.one kinds) := by
  rw [given?]
  rcases hvalue.part?_cases hkind hslot with hnone | ⟨part, hpart, hprintable⟩
  · exact .inl (by rw [hnone, Option.filter_none])
  · rw [hpart, Option.filter_some]
    cases hnull : part.value.isNull with
    | true => exact .inl rfl
    | false => exact .inr ⟨part, rfl, hprintable.given hnull⟩

theorem listAt_yields {list : Slot} (hslot : kind.slot key = list)
    (hitems : list.items? = some inner) (hneeded : list.mayMiss = false) :
    Yields (fun parts => ∀ part ∈ parts, part.value.Printable inner) (value.listAt key) := by
  have hplain : list ≠ .plain := by
    rintro rfl
    cases hneeded
  obtain ⟨child, hlookup, hchild⟩ := hvalue.exists_field hkind hslot hneeded
  obtain ⟨items, rfl, hfills⟩ := exists_items_of_fills hchild.fills hitems hplain
  obtain ⟨parts, hparts, rfl⟩ := listAt_of_array hlookup
  have hdetailed := hchild.detailed
  rw [isDetailed, itemsDetailed_iff] at hdetailed
  refine ⟨parts, hparts, fun part hpart => ?_⟩
  have hmem := List.mem_map_of_mem (f := Part.value) hpart
  exact ⟨hfills _ hmem, hdetailed _ hmem⟩

omit hkind in
theorem name_yields (hidentifier : value.kind = .identifier) :
    Yields (fun name => name.isText = true) value.name := by
  obtain ⟨child, hlookup, hchild⟩ := hvalue.exists_field hidentifier
    (show Kind.slot .identifier "name" = .text from rfl) rfl
  refine ⟨child, name_eq_ok hlookup, ?_⟩
  have hfills := hchild.fills
  cases child with
  | text => rfl
  | node | array => simp [Value.fills, Slot.admits, Slot.items?] at hfills
  | _ => cases hfills

/-- The name of a function or a class, which an expression need not have. -/
theorem id_cases (hslot : kind.slot "id" = .optional [.identifier] ∨
      kind.slot "id" = .one [.identifier]) :
    value.given? "id" = none ∨ ∃ part, value.given? "id" = some part ∧
      Yields (fun name => name.isText = true) part.value.name := by
  rcases hslot with hslot | hslot
  · rcases hvalue.given?_cases hkind hslot with hnone | ⟨part, hpart, hid⟩
    · exact .inl hnone
    · exact .inr ⟨part, hpart, hid.name_yields (List.mem_singleton.1 hid.kind_mem)⟩
  · obtain ⟨child, hlookup, hid⟩ := hvalue.exists_field hkind hslot rfl
    obtain ⟨part, hpart, rfl⟩ := exists_part hlookup
    obtain ⟨tag, fields, hnode, -⟩ := hid.exists_node
    refine .inr ⟨part, ?_, hid.name_yields (List.mem_singleton.1 hid.kind_mem)⟩
    rw [given?, hpart, Option.filter_some, hnode]
    rfl

/-- The value of a property is a function where its text follows the key. -/
theorem function_of_isKeyed {held : Value} (hproperty : kind = .property)
    (hlookup : value.lookup "value" = some held) (hkeyed : value.isKeyedFunction = true) :
    held.kind = .functionExpression := by
  subst hkind
  have hdetail := hvalue.hasDetail (by simp [hproperty])
  rw [Value.hasDetail, hproperty] at hdetail
  simp only [hkeyed, hlookup, Bool.not_true, Bool.false_or, Option.any_some, beq_iff_eq] at hdetail
  exact hdetail

/-- A function that is no arrow has a block for its body. -/
theorem body_yields (hfunction : kind = .functionExpression ∨ kind = .functionDeclaration) :
    Yields (fun body => body.value.Printable (.one (.blockStatement :: expressions)) ∧
      body.value.kind = .blockStatement) (value.require "body") := by
  subst hkind
  have hslot : value.kind.slot "body" = .one (.blockStatement :: expressions) := by
    rcases hfunction with hkind | hkind <;> rw [hkind] <;> rfl
  have hdetail : ((value.lookup "body").any fun body => body.kind == .blockStatement) = true := by
    have hdetail := hvalue.hasDetail (by rcases hfunction with hkind | hkind <;> simp [hkind])
    rcases hfunction with hkind | hkind <;> simpa only [Value.hasDetail, hkind] using hdetail
  obtain ⟨child, hlookup, hchild⟩ := hvalue.exists_field rfl hslot rfl
  obtain ⟨part, hpart, rfl⟩ := exists_part hlookup
  rw [hlookup, Option.any_some, beq_iff_eq] at hdetail
  exact ⟨part, require_eq_ok_iff.2 hpart, hchild, hdetail⟩

end Printable

end Value

namespace Part

open Attempt Value

variable {whole : Value} {part : Part whole} {kind : Kind} {kinds inside : List Kind}
  {key : String} (hpart : part.value.Printable (.one inside)) (hkind : part.value.kind = kind)

include hpart

theorem flag_yields (key : String) : Yields Anything (part.flag key) := by
  rw [flag, hpart.asRecord]
  exact .anything

include hkind

omit hkind in
theorem raw_yields (hquasi : part.value.kind = .templateElement) :
    Yields (fun held => Yields (fun raw => raw.value.isText = true) (held.require "raw"))
      (part.require "value") :=
  (hpart.raw_yields hquasi).bind fun _ hraw => .pure (hraw.bind fun _ htext => .pure htext)

theorem require_yields (hslot : kind.slot key = .one kinds) :
    Yields (fun found => found.value.Printable (.one kinds)) (part.require key) :=
  (hpart.require_yields hkind hslot).bind fun _ hfound => .pure hfound

omit hkind in
theorem body_yields (hfunction : part.value.kind = .functionExpression) :
    Yields (fun body => body.value.Printable (.one (.blockStatement :: Kind.expressions)) ∧
      body.value.kind = .blockStatement) (part.require "body") :=
  (hpart.body_yields hfunction (.inl rfl)).bind fun _ hbody => .pure hbody

theorem listAt_yields (hslot : kind.slot key = .many kinds) :
    Yields (fun parts => ∀ found ∈ parts, found.value.Printable (.one kinds))
      (part.listAt key) := by
  rw [listAt, hpart.asRecord]
  refine (hpart.listAt_yields hkind hslot rfl rfl).bind fun parts hparts => .pure ?_
  exact List.forall_mem_map.2 hparts

theorem given?_yields (hslot : kind.slot key = .optional kinds) :
    Yields (fun found? => ∀ found ∈ found?, found.value.Printable (.one kinds))
      (part.given? key) := by
  rw [given?, hpart.asRecord]
  refine .pure fun found hfound => ?_
  rcases hpart.given?_cases hkind hslot with hnone | ⟨held, hheld, hprintable⟩
  · rw [hnone] at hfound
    cases hfound
  · rw [hheld] at hfound
    cases hfound
    exact hprintable

omit hpart hkind in
theorem elements_yields (hlist : part.value.Printable (.many kinds)) :
    Yields (fun parts => ∀ found ∈ parts, found.value.Printable (.one kinds))
      part.elements := by
  obtain ⟨items, hitems, hprintable⟩ := hlist.exists_items
  have hvalues := part.elements_map_value
  rw [hitems] at hvalues
  obtain ⟨parts, hparts, rfl⟩ := map_eq_ok_iff.1 hvalues
  exact ⟨parts, hparts, List.forall_mem_map.1 hprintable⟩

omit hpart hkind in
/-- Every item of a list can be read up to its length. -/
theorem item_yields (hlist : part.value.Printable (.many kinds)) :
    Yields (fun count => ∀ index < count,
      Yields (fun found => found.value.Printable (.one kinds)) (part.item index))
      part.value.length := by
  obtain ⟨items, hitems, hprintable⟩ := hlist.exists_items
  rw [hitems]
  refine ⟨items.length, rfl, fun index hindex => ?_⟩
  have hvalue := part.item_map_value index
  rw [hitems, Value.item, List.getElem?_eq_getElem hindex] at hvalue
  obtain ⟨found, hfound, hitem⟩ := map_eq_ok_iff.1 hvalue
  have hmem : found.value ∈ items := by
    rw [hitem]
    exact List.getElem_mem hindex
  exact ⟨found, hfound, hprintable _ hmem⟩

end Part

end Debundle
