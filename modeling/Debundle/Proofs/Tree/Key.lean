import Debundle.Tree.Key

/-!
# Values as keys of tables

Names may be any values, and tables compare them by content.  Among values that can be
keys this comparison does not depend on which of the two is the entry of the table, and a
text is the same as no value but itself.
-/

namespace Debundle

theorem Double.same_comm (left right : Double) : left.same right = right.same left := by
  have heq : (left == right) = (right == left) := BEq.comm
  cases left with
  | nan => cases right <;> simp [same, isZero]
  | _ =>
    cases right with
    | nan => simp [same, isZero]
    | _ => simp only [same, heq, Bool.and_comm]

theorem Number.same_comm (left right : Number) : left.same right = right.same left := by
  cases left <;> cases right <;> simp [same, Double.same_comm, Bool.beq_comm]

namespace Value

variable {text : String} {value key : Value}

theorem same_text_iff : (Value.text text).same value = true ↔ value = .text text := by
  cases value with
  | text other => rw [same, beq_iff_eq, Value.text.injEq, eq_comm]
  | _ => simp [same, number?]

theorem text_beq_iff : ((Value.text text) == value) = true ↔ value = .text text :=
  same_text_iff

theorem contains_text_iff {names : List Value} :
    names.contains (Value.text text) = true ↔ Value.text text ∈ names := by
  induction names with
  | nil => simp
  | cons head rest ih =>
    rw [List.contains_cons, Bool.or_eq_true, text_beq_iff, ih, List.mem_cons, eq_comm]

theorem same_eq_text (hsame : value.same (.text text) = true) : value = .text text := by
  cases value with
  | text other =>
    rw [same, beq_iff_eq] at hsame
    rw [hsame]
  | _ => simp [same, number?] at hsame

theorem eq_of_asKey (hkey : value.asKey .fixed = .ok key) : key = value := by
  simp only [asKey] at hkey
  split at hkey
  · cases hkey
    rfl
  · cases hkey

theorem isKey_of_asKey (hkey : value.asKey .fixed = .ok key) : key.isKey = true := by
  have heq := eq_of_asKey hkey
  simp only [asKey] at hkey
  split at hkey
  · rwa [heq]
  · cases hkey

mutual

theorem same_comm (left right : Value) (hleft : left.isKey = true) (hright : right.isKey = true) :
    left.same right = right.same left := by
  cases left with
  | array items =>
    cases right with
    | array others =>
      rw [isKey] at hleft hright
      rw [same, same, sameItems_comm items others hleft hright]
    | _ => simp [same, number?]
  | mapping | node => cases hleft
  | _ => cases right <;> simp [same, number?, Number.same_comm, Bool.beq_comm] at *

theorem sameItems_comm (items others : List Value) (hitems : isKey.areKeys items = true)
    (hothers : isKey.areKeys others = true) :
    same.sameItems items others = same.sameItems others items := by
  cases items with
  | nil => cases others <;> rfl
  | cons item rest =>
    cases others with
    | nil => rfl
    | cons other others =>
      rw [isKey.areKeys, Bool.and_eq_true] at hitems hothers
      rw [same.sameItems, same.sameItems, same_comm item other hitems.1 hothers.1,
        sameItems_comm rest others hitems.2 hothers.2]

end

theorem beq_comm_of_isKey {left right : Value} (hleft : left.isKey = true)
    (hright : right.isKey = true) : (left == right) = (right == left) :=
  same_comm left right hleft hright

end Value

end Debundle
