import Debundle.Proofs.Entries
import Debundle.Tree.Value
import Mathlib.Data.List.Forall2

/-!
# Items and fields side by side

A pass that goes through a list keeps the number of its items, and one that goes through
fields keeps their names and their order.  What it does to one item or field can then be
read off at the same place before and after.
-/

namespace Debundle

theorem getElem?_of_forall₂ {α β : Type} {relation : α → β → Prop} {front : List α}
    {back : List β} (hrelated : List.Forall₂ relation front back) {index : Nat} {item : α}
    (hitem : front[index]? = some item) :
    ∃ other, back[index]? = some other ∧ relation item other := by
  induction hrelated generalizing index with
  | nil => simp at hitem
  | @cons first second _ _ hfirst _ ih =>
    cases index with
    | zero =>
      simp only [List.getElem?_cons_zero, Option.some.injEq] at hitem ⊢
      exact ⟨second, rfl, hitem ▸ hfirst⟩
    | succ index =>
      simp only [List.getElem?_cons_succ] at hitem ⊢
      exact ih hitem

namespace Fields

/-- The same names in the same order, with related values. -/
def Related (relation : String → Value → Value → Prop) (before after : Fields) : Prop :=
  List.Forall₂ (fun old new => new.1 = old.1 ∧ relation old.1 old.2 new.2) before after

variable {relation : String → Value → Value → Prop} {before after : Fields}

theorem Related.keys_eq (hrelated : Related relation before after) :
    keys after = keys before := by
  unfold Related at hrelated
  induction hrelated with
  | nil => rfl
  | cons hfirst _ ih =>
    simp only [keys, List.map_cons] at ih ⊢
    rw [hfirst.1, ih]

theorem Related.get? (hrelated : Related relation before after) {key : String}
    {old : Value} (hold : Fields.get? before key = some old) :
    ∃ new, Fields.get? after key = some new ∧ relation key old new := by
  unfold Related at hrelated
  induction hrelated with
  | nil => cases hold
  | @cons first second _ _ hfirst _ ih =>
    obtain ⟨name, value⟩ := first
    obtain ⟨other, changed⟩ := second
    obtain ⟨rfl, hrelation⟩ := hfirst
    simp only [Fields.get?, List.lookup_cons] at hold ih ⊢
    by_cases hkey : key = other
    · subst hkey
      simp only [beq_self_eq_true, Option.some.injEq] at hold ⊢
      subst hold
      exact ⟨changed, rfl, hrelation⟩
    · rw [beq_false_of_ne hkey] at hold ⊢
      exact ih hold

/-- Whether there is a field of a name depends on the names alone. -/
theorem get?_isSome_iff {fields : Fields} {key : String} :
    (Fields.get? fields key).isSome = true ↔ key ∈ keys fields := by
  induction fields with
  | nil => simp [Fields.get?, keys]
  | cons entry rest ih =>
    obtain ⟨name, value⟩ := entry
    simp only [Fields.get?, keys, List.lookup_cons, List.map_cons, List.mem_cons] at ih ⊢
    by_cases hkey : key = name
    · simp [hkey]
    · rw [beq_false_of_ne hkey]
      simp [hkey, ih]

theorem mem_of_get? {fields : Fields} {key : String} {value : Value}
    (hget : Fields.get? fields key = some value) : (key, value) ∈ fields := by
  obtain ⟨front, back, rfl, -⟩ := List.lookup_eq_some_iff.1 hget
  simp

/-- Where no name is used twice, every field is found under its name. -/
theorem get?_of_mem {fields : Fields} (hnodup : (keys fields).Nodup) {key : String}
    {value : Value} (hmem : (key, value) ∈ fields) : Fields.get? fields key = some value := by
  induction fields with
  | nil => cases hmem
  | cons entry rest ih =>
    obtain ⟨name, held⟩ := entry
    simp only [keys, List.map_cons, List.nodup_cons] at hnodup ih
    simp only [Fields.get?, List.lookup_cons]
    rcases List.mem_cons.1 hmem with heq | hrest
    · cases heq
      simp
    · have hkey : key ≠ name := by
        rintro rfl
        exact hnodup.1 (List.mem_map.2 ⟨(key, value), hrest, rfl⟩)
      rw [beq_false_of_ne hkey]
      exact ih hnodup.2 hrest

theorem get?_set (fields : Fields) (key other : String) (value : Value) :
    Fields.get? (Fields.set fields key value) other =
      if other = key then some value else Fields.get? fields other := by
  simp [Fields.get?, Fields.set, Entries.lookup_put]

end Fields

end Debundle
