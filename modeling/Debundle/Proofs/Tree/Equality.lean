import Debundle.Tree.Value

/-!
# Equality of trees

Whether two trees are equal can be decided, so statements about the outcome of a pass
on a given tree can be evaluated.  This is equality of trees, with fields in the same
order and numbers of the same form; two values that stand for the same key need not be
equal.
-/

namespace Debundle.Value

/-- Whether two values are the same tree. -/
def identical : Value → Value → Bool
  | .null, .null => true
  | .bool left, .bool right => left == right
  | .int left, .int right => left == right
  | .float left, .float right => left == right
  | .text left, .text right => left == right
  | .array left, .array right => identicalItems left right
  | .mapping left, .mapping right => identicalFields left right
  | .node tag left, .node other right => tag == other && identicalFields left right
  | _, _ => false
where
  identicalItems : List Value → List Value → Bool
    | [], [] => true
    | item :: rest, other :: others => item.identical other && identicalItems rest others
    | _, _ => false
  identicalFields : List (String × Value) → List (String × Value) → Bool
    | [], [] => true
    | (key, value) :: rest, (key', value') :: others =>
      key == key' && value.identical value' && identicalFields rest others
    | _, _ => false

mutual

theorem identical_iff (left right : Value) : left.identical right = true ↔ left = right := by
  cases left with
  | array items => cases right <;> simp [identical, identicalItems_iff items]
  | mapping fields => cases right <;> simp [identical, identicalFields_iff fields]
  | node tag fields => cases right <;> simp [identical, identicalFields_iff fields]
  | _ => cases right <;> simp [identical]

theorem identicalItems_iff (items others : List Value) :
    identical.identicalItems items others = true ↔ items = others := by
  cases items with
  | nil => cases others <;> simp [identical.identicalItems]
  | cons item rest =>
    cases others with
    | nil => simp [identical.identicalItems]
    | cons other others =>
      simp [identical.identicalItems, identical_iff item, identicalItems_iff rest]

theorem identicalFields_iff (fields others : List (String × Value)) :
    identical.identicalFields fields others = true ↔ fields = others := by
  cases fields with
  | nil => cases others <;> simp [identical.identicalFields]
  | cons entry rest =>
    cases others with
    | nil => obtain ⟨key, value⟩ := entry; simp [identical.identicalFields]
    | cons other others =>
      obtain ⟨key, value⟩ := entry
      obtain ⟨key', value'⟩ := other
      simp [identical.identicalFields, identical_iff value, identicalFields_iff rest]

end

instance : DecidableEq Value := fun left right =>
  decidable_of_iff (left.identical right = true) (identical_iff left right)

end Debundle.Value
