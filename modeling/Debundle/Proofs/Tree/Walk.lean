import Debundle.Tree.Walk

/-!
# A walk with a stack meets the nodes in order

The walk that keeps what is still to be visited on a stack meets the nodes of a tree in the order
in which a recursion over the tree lists them: each before the nodes inside it.
-/

namespace Debundle.Value

theorem preorder_ofItems (items : List Value) :
    preorder.ofItems items = items.flatMap preorder := by
  induction items with
  | nil => rfl
  | cons item rest ih => rw [preorder.ofItems, List.flatMap_cons, ih]

theorem preorder_of_not_isBranch {value : Value} (hleaf : value.isBranch = false) :
    value.preorder = [] := by
  cases value with
  | array items => cases hleaf
  | node tag fields => cases hleaf
  | _ => rfl

/-- Leaves in fields hold no nodes. -/
theorem preorder_ofFields (fields : Fields) :
    preorder.ofFields fields = (branches fields).flatMap preorder := by
  induction fields with
  | nil => rfl
  | cons entry rest ih =>
    obtain ⟨key, value⟩ := entry
    simp only [preorder.ofFields, ih, branches, List.map_cons]
    cases hbranch : value.isBranch with
    | false =>
      rw [preorder_of_not_isBranch hbranch, List.filter_cons_of_neg (by simp [hbranch]),
        List.nil_append]
    | true => rw [List.filter_cons_of_pos hbranch, List.flatMap_cons]

theorem walkStack_eq_flatMap (stack : List Value) : walkStack stack = stack.flatMap preorder := by
  fun_induction walkStack stack with
  | case1 => rfl
  | case2 tag fields rest ih =>
    rw [ih, List.flatMap_append, ← preorder_ofFields, List.flatMap_cons, preorder, List.cons_append]
  | case3 items rest ih =>
    rw [ih, List.flatMap_append, ← preorder_ofItems, List.flatMap_cons, preorder]
  | _ =>
    rename_i ih
    rw [ih, List.flatMap_cons]
    rfl

theorem walk_eq_preorder (value : Value) : value.walk = value.preorder := by
  rw [walk, walkStack_eq_flatMap, List.flatMap_cons, List.flatMap_nil, List.append_nil]

end Debundle.Value
