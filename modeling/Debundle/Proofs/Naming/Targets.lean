import Debundle.Proofs.Naming.Exports
import Debundle.Proofs.Naming.Totality

/-!
# What counts as an assignment to exports

Whether an assignment exports something is decided on one dotted text, in which the name of an
identifier, a literal and an index in brackets look alike.  A target exports if the text of its
last part is `exports` or ends in `.exports`, whatever that part is.
-/

namespace Debundle

/-! ## Texts that end in `exports` -/

/-- `exports`, alone or behind something on one line and a point. -/
def IsExportsText (text : String) : Prop :=
  text = "exports" ∨
    ∃ owner, owner ≠ "" ∧ '\n' ∉ owner.toList ∧ text = owner ++ ".exports"

/-- A text apart from a line break at its end. -/
def withoutBreak (text : String) : String :=
  if text.toList.getLast? = some '\n' then String.ofList text.toList.dropLast else text

variable {text : String}

theorem IsExportsText.getLast? (htext : IsExportsText text) : text.toList.getLast? = some 's' := by
  obtain rfl | ⟨owner, -, -, rfl⟩ := htext
  · rfl
  · rw [String.toList_append, List.getLast?_append]
    rfl

/-- Only the word `exports` is left at the end of such a text. -/
def EndsInExports (text : String) : Prop :=
  ∃ front, withoutBreak text = front ++ "exports"

namespace EndsInExports

variable {text : String}

theorem getLast? (htext : EndsInExports text) :
    text.toList.getLast? = some 's' ∨ text.toList.getLast? = some '\n' := by
  obtain ⟨front, hfront⟩ := htext
  by_cases hbreak : text.toList.getLast? = some '\n'
  · exact .inr hbreak
  · rw [withoutBreak, if_neg hbreak] at hfront
    rw [hfront, String.toList_append, List.getLast?_append]
    exact .inl rfl

end EndsInExports

/-! ## Literals -/

namespace Value

variable {value node property : Value} {slot : Slot} {head step text : String}

/-- The path of what a member access takes a property of.  In front of brackets only a name
counts. -/
def ownerPath (member : Value) : Except Fault Value :=
  (member.lookup "object").elim (.ok (.text "")) fun owner =>
    if member.flag "computed" then
      if owner.kind = .identifier then owner.name else .ok (.text "")
    else owner.path

theorem path_member (hkind : value.kind = .memberExpression) :
    value.path = do
      return .text ((← value.ownerPath).display ++ "." ++
        (← value.sidePath "property").display) := by
  rw [path, hkind]
  simp only [ownerPath, sidePath, ← part?_map_value]
  cases value.part? "object" <;> cases value.part? "property" <;> rfl

/-- The text by which the last part of a target is known: a name, a string, the name of a
function, or a member access of its own. -/
inductive HasText : Value → String → Prop where
  | name {value : Value} {text : String} (hkind : value.kind = .identifier)
      (hname : value.lookup "name" = some (.text text)) : HasText value text
  | literal {value : Value} {text : String} (hkind : value.kind = .literal)
      (htext : value.lookup "value" = some (.text text)) : HasText value text
  | function {value id : Value} {text : String} (hkind : value.kind = .functionExpression)
      (hid : value.lookup "id" = some id) (hname : id.kind = .identifier)
      (htext : id.lookup "name" = some (.text text)) : HasText value text
  | member {value property : Value} {head step : String} (hkind : value.kind = .memberExpression)
      (howner : value.ownerPath = .ok (.text head))
      (hproperty : value.lookup "property" = some property) (hstep : HasText property step) :
      HasText value (head ++ "." ++ step)

theorem HasText.path_eq (hspelt : value.HasText text) : value.path = .ok (.text text) := by
  induction hspelt with
  | name hkind hname =>
    rw [path, hkind]
    exact name_eq_ok hname
  | literal hkind htext =>
    rw [path, hkind, htext]
    rfl
  | function hkind hid hname htext =>
    rw [path, hkind]
    simp only [hid, if_pos hname]
    exact name_eq_ok htext
  | member hkind howner hproperty hstep ih =>
    rw [path_member hkind, howner, sidePath, hproperty, Option.elim_some, ih]
    rfl

variable {found : Value} {tag : String} {fields : Fields}

mutual

/-- The nodes inside a well-formed value are well formed. -/
theorem fills_of_mem_preorder (value : Value) {slot : Slot} (hfills : value.fills slot = true)
    (hnode : node ∈ value.preorder) : ∃ inner, node.fills inner = true := by
  cases value with
  | array items =>
    obtain ⟨inner, -, hitems⟩ := fills_array_iff.1 hfills
    exact fills_of_mem_preorder_items items hitems hnode
  | node tag fields =>
    obtain rfl | hinside := List.mem_cons.1 hnode
    · exact ⟨slot, hfills⟩
    · exact fills_of_mem_preorder_fields fields (fills_node_iff.1 hfills).2.2 hinside
  | _ => cases hnode
termination_by structural value

theorem fills_of_mem_preorder_items (items : List Value) {slot : Slot}
    (hitems : ∀ item ∈ items, item.fills slot = true) (hnode : node ∈ preorder.ofItems items) :
    ∃ inner, node.fills inner = true := by
  cases items with
  | nil => cases hnode
  | cons item rest =>
    rw [List.forall_mem_cons] at hitems
    obtain hfirst | hrest := List.mem_append.1 hnode
    · exact fills_of_mem_preorder item hitems.1 hfirst
    · exact fills_of_mem_preorder_items rest hitems.2 hrest
termination_by structural items

theorem fills_of_mem_preorder_fields (fields : List (String × Value)) {slots : String → Slot}
    (hfields : ∀ entry ∈ fields, entry.2.fills (slots entry.1) = true)
    (hnode : node ∈ preorder.ofFields fields) : ∃ inner, node.fills inner = true := by
  cases fields with
  | nil => cases hnode
  | cons entry rest =>
    rw [List.forall_mem_cons] at hfields
    obtain hfirst | hrest := List.mem_append.1 hnode
    · exact fills_of_mem_preorder entry.2 hfields.1 hfirst
    · exact fills_of_mem_preorder_fields rest hfields.2 hrest
termination_by structural fields

end

end Value

end Debundle
