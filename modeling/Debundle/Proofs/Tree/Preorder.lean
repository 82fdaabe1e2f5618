import Debundle.Proofs.Loop
import Debundle.Proofs.Tree.Walk
import Debundle.Tree.Visit
import Mathlib.Data.List.Basic
import Mathlib.Tactic.Choose

/-!
# The order of a walk

A walk is a loop that keeps on a stack what is still to be visited.  Where a node stands in a
tree is told by numbers, one for each step down, and the order of a depth-first search is the
lexicographic order of these places.  The walk ends, and meets every node at its place once and
in this order, which is also the order in which a visitor is led through the tree.
-/

namespace Debundle

/-- The way from the root of a tree to a value inside it: the number of the item or of the field
at each step. -/
abbrev Place := List Nat

/-- The visitor that collects the nodes that it is led to, and goes on from all of them. -/
def Visitor.reaching : Visitor Value where
  atNode tag fields := ([.node tag fields], true)
  atLeaf _ := []

namespace Value

/-- The values directly inside a value. -/
def held : Value → List Value
  | .array items => items
  | .node _ fields => fields.map Prod.snd
  | _ => []

def atPlace? : Value → Place → Option Value
  | value, [] => some value
  | value, index :: rest => value.held[index]?.bind fun part => part.atPlace? rest

/-- The places of nodes in a tree, all of them and in the order of a depth-first search, with
the nodes that stand there. -/
structure LiesAt (root : Value) (places : List Place) (nodes : List Value) : Prop where
  /-- A place comes before all places inside it, and these come before the later ones. -/
  ordered : places.Pairwise (List.Lex (· < ·))
  complete : ∀ place, place ∈ places ↔ ∃ node, root.atPlace? place = some node ∧ node.isNode = true
  found : places.map root.atPlace? = nodes.map some

/-- The nodes of a tree, each occurrence once, in the order of a depth-first search. -/
def IsPreorder (root : Value) (nodes : List Value) : Prop :=
  ∃ places, root.LiesAt places nodes

theorem fieldsSize_eq_itemsSize (fields : Fields) :
    size.fieldsSize fields = size.itemsSize (fields.map Prod.snd) := by
  induction fields with
  | nil => rfl
  | cons entry rest ih =>
    obtain ⟨key, value⟩ := entry
    rw [size.fieldsSize, ih, List.map_cons, size.itemsSize]

theorem size_lt_of_mem_held {value part : Value} (hpart : part ∈ value.held) :
    part.size < value.size := by
  cases value with
  | array items => exact size_lt_of_mem_array hpart
  | node tag fields =>
    have hless := size_lt_of_mem_array hpart
    rwa [size, held, ← fieldsSize_eq_itemsSize] at hless
  | _ => cases hpart

/-- What holds of a value if it holds of the values directly inside holds of all values. -/
theorem induction_on_held {motive : Value → Prop}
    (hstep : ∀ value : Value, (∀ part ∈ value.held, motive part) → motive value) (value : Value) :
    motive value := by
  induction hsize : value.size using Nat.strongRecOn generalizing value with
  | ind size ih =>
    subst hsize
    exact hstep value fun part hpart => ih part.size (size_lt_of_mem_held hpart) part rfl

/-- A node comes first, and then the nodes inside each of the values that it holds. -/
theorem preorder_eq_flatMap_held (value : Value) :
    value.preorder = (if value.isNode then [value] else []) ++ value.held.flatMap preorder := by
  cases value with
  | array items => exact preorder_ofItems items
  | node tag fields =>
    have hfields : preorder.ofFields fields = (fields.map Prod.snd).flatMap preorder := by
      induction fields with
      | nil => rfl
      | cons entry rest ih =>
        obtain ⟨key, value⟩ := entry
        rw [preorder.ofFields, ih, List.map_cons, List.flatMap_cons]
    exact congrArg (Value.node tag fields :: ·) hfields
  | _ => rfl

/-- The places in the values that a value holds, each with the number of its value in front. -/
def placesBelow (parts : List Value) (places : Value → List Place) : List Place :=
  parts.zipIdx.flatMap fun entry => (places entry.1).map (entry.2 :: ·)

section

variable {root : Value} {places : Value → List Place}

theorem mem_placesBelow_iff {parts : List Value} {place : Place} :
    place ∈ placesBelow parts places ↔
      ∃ index part rest, parts[index]? = some part ∧ rest ∈ places part ∧
        index :: rest = place := by
  rw [placesBelow, List.mem_flatMap]
  constructor
  · rintro ⟨⟨part, index⟩, hpart, hplace⟩
    obtain ⟨rest, hrest, rfl⟩ := List.mem_map.1 hplace
    exact ⟨index, part, rest, List.mem_zipIdx_iff_getElem?.1 hpart, hrest, rfl⟩
  · rintro ⟨index, part, rest, hpart, hrest, rfl⟩
    exact ⟨(part, index), List.mem_zipIdx_iff_getElem?.2 hpart, List.mem_map_of_mem hrest⟩

theorem ordered_placesBelow {parts : List Value}
    (hordered : ∀ part ∈ parts, (places part).Pairwise (List.Lex (· < ·))) :
    (placesBelow parts places).Pairwise (List.Lex (· < ·)) := by
  have hnumbers : parts.zipIdx.Pairwise fun left right => left.2 < right.2 := by
    rw [← List.pairwise_map, List.zipIdx_map_snd]
    exact List.pairwise_lt_range'
  rw [placesBelow, List.pairwise_flatMap]
  constructor
  · intro entry hentry
    have hpart := List.mem_of_getElem? (List.mem_zipIdx_iff_getElem?.1 hentry)
    rw [List.pairwise_map]
    exact (hordered entry.1 hpart).imp .cons
  · refine hnumbers.imp fun hless left hleft right hright => ?_
    obtain ⟨front, -, rfl⟩ := List.mem_map.1 hleft
    obtain ⟨back, -, rfl⟩ := List.mem_map.1 hright
    exact .rel hless

theorem found_placesBelow
    (hfound : ∀ part ∈ root.held, (places part).map part.atPlace? = part.preorder.map some) :
    (placesBelow root.held places).map root.atPlace? =
      (root.held.flatMap preorder).map some := by
  have hentry : ∀ entry ∈ root.held.zipIdx,
      ((places entry.1).map (entry.2 :: ·)).map root.atPlace? = entry.1.preorder.map some := by
    intro entry hentry
    have hpart := List.mem_zipIdx_iff_getElem?.1 hentry
    rw [List.map_map, ← hfound entry.1 (List.mem_of_getElem? hpart)]
    refine List.map_congr_left fun rest _ => ?_
    rw [Function.comp_apply, atPlace?, hpart, Option.bind_some]
  calc (placesBelow root.held places).map root.atPlace?
      = root.held.zipIdx.flatMap fun entry => entry.1.preorder.map some := by
        rw [placesBelow, List.map_flatMap, List.flatMap_congr hentry]
    _ = (root.held.zipIdx.map Prod.fst).flatMap fun part => part.preorder.map some := by
        rw [List.flatMap_map]
    _ = (root.held.flatMap preorder).map some := by
        rw [List.zipIdx_map_fst, List.map_flatMap]

/-- If the nodes inside each held value are listed in order, so are all nodes of the value: its
own place comes first. -/
theorem LiesAt.of_held (hheld : ∀ part ∈ root.held, part.LiesAt (places part) part.preorder) :
    root.LiesAt ((if root.isNode then [[]] else []) ++ placesBelow root.held places)
      root.preorder where
  ordered := by
    have hbelow := ordered_placesBelow fun part hpart => (hheld part hpart).ordered
    cases root.isNode with
    | false => exact hbelow
    | true =>
      refine List.pairwise_cons.2 ⟨fun place hplace => ?_, hbelow⟩
      obtain ⟨index, part, rest, -, -, rfl⟩ := mem_placesBelow_iff.1 hplace
      exact .nil
  complete place := by
    have hown : place ∈ (if root.isNode then [([] : Place)] else []) ↔
        place = [] ∧ root.isNode = true := by
      cases root.isNode <;> simp
    rw [List.mem_append, hown, mem_placesBelow_iff]
    cases place with
    | nil => simp [atPlace?]
    | cons index rest =>
      constructor
      · rintro (⟨hnil, -⟩ | ⟨_, part, _, hpart, hrest, heq⟩)
        · cases hnil
        · cases heq
          obtain ⟨node, hnode, hkind⟩ :=
            ((hheld part (List.mem_of_getElem? hpart)).complete rest).1 hrest
          exact ⟨node, by rw [atPlace?, hpart, Option.bind_some, hnode], hkind⟩
      · rintro ⟨node, hnode, hkind⟩
        obtain ⟨part, hpart, hrest⟩ := Option.bind_eq_some_iff.1 hnode
        have hinside := (hheld part (List.mem_of_getElem? hpart)).complete rest
        exact .inr ⟨index, part, rest, hpart, hinside.2 ⟨node, hrest, hkind⟩, rfl⟩
  found := by
    rw [List.map_append, found_placesBelow fun part hpart => (hheld part hpart).found,
      preorder_eq_flatMap_held, List.map_append]
    cases root.isNode <;> rfl

end

theorem isPreorder_preorder (value : Value) : value.IsPreorder value.preorder := by
  induction value using induction_on_held with
  | hstep value ih =>
    choose! places hplaces using ih
    exact ⟨_, .of_held hplaces⟩

/-- The values that a walk goes on to from a value. -/
def nextValues (value : Value) : List Value :=
  (value.children []).map Prod.snd

theorem nextValues_array (items : List Value) : (Value.array items).nextValues = items := by
  rw [nextValues, children, List.map_map]
  exact List.zipIdx_map_fst 0 items

theorem nextValues_node (tag : String) (fields : Fields) :
    (Value.node tag fields).nextValues = branches fields := by
  rw [nextValues, children, branches, List.filter_map]
  rfl

theorem itemsSize_nextValues_lt (value : Value) : size.itemsSize value.nextValues < value.size := by
  cases value with
  | array items =>
    rw [nextValues_array, size]
    omega
  | node tag fields =>
    have hbranches := itemsSize_branches_le fields
    rw [nextValues_node, size]
    omega
  | mapping fields => exact Nat.lt_of_lt_of_le Nat.one_pos (Nat.le_add_right 1 _)
  | _ => exact Nat.one_pos

theorem walkStack_cons (value : Value) (rest : List Value) :
    walkStack (value :: rest) =
      (if value.isNode then [value] else []) ++ walkStack (value.nextValues ++ rest) := by
  cases value with
  | array items => rw [walkStack, nextValues_array]; rfl
  | node tag fields => rw [walkStack, nextValues_node]; rfl
  | _ => rw [walkStack]; rfl

/-- A walk under way. -/
structure Tour where
  /-- What is still to be visited, the next value last. -/
  stack : List Value
  /-- The nodes that were met. -/
  met : List Value

/-- A round takes the last value from the stack, and puts what comes next there in reverse. -/
def walkLoop : Loop Tour where
  goesOn tour := !tour.stack.isEmpty
  round tour :=
    match tour.stack.getLast? with
    | none => tour
    | some current =>
      { stack := tour.stack.dropLast ++ current.nextValues.reverse
        met := tour.met ++ if current.isNode then [current] else [] }

theorem round_walkLoop (current : Value) (rest met : List Value) :
    walkLoop.round ⟨(current :: rest).reverse, met⟩ =
      ⟨(current.nextValues ++ rest).reverse, met ++ if current.isNode then [current] else []⟩ := by
  rw [List.reverse_cons, List.reverse_append]
  simp [walkLoop]

/-- From any stack the walk ends with the nodes that are met from there. -/
theorem walkLoop_endsAfter (stack met : List Value) :
    ∃ rounds ≤ size.itemsSize stack,
      walkLoop.EndsAfter rounds ⟨stack.reverse, met⟩ ⟨[], met ++ walkStack stack⟩ := by
  induction hsize : size.itemsSize stack using Nat.strongRecOn generalizing stack met with
  | ind total ih =>
    subst hsize
    cases stack with
    | nil =>
      refine ⟨0, Nat.zero_le _, ?_⟩
      rw [walkStack, List.append_nil]
      exact .stop rfl
    | cons current rest =>
      have hless : size.itemsSize (current.nextValues ++ rest) <
          size.itemsSize (current :: rest) := by
        have hnext := itemsSize_nextValues_lt current
        rw [itemsSize_append, size.itemsSize]
        omega
      obtain ⟨rounds, hrounds, hends⟩ := ih _ hless (current.nextValues ++ rest)
        (met ++ if current.isNode then [current] else []) rfl
      refine ⟨rounds + 1, Nat.succ_le_of_lt (Nat.lt_of_le_of_lt hrounds hless), .round ?_ ?_⟩
      · simp [walkLoop]
      · rw [round_walkLoop, walkStack_cons, ← List.append_assoc]
        exact hends

section

variable {α : Type} (visitor : Visitor α)

theorem visitItems_eq_flatMap (items : List Value) :
    visit.visitItems visitor items = items.flatMap (visit visitor) := by
  induction items with
  | nil => rfl
  | cons item rest ih => rw [visit.visitItems, ih, List.flatMap_cons]

theorem branches_cons (key : String) (value : Value) (rest : Fields) :
    branches ((key, value) :: rest) =
      if value.isBranch then value :: branches rest else branches rest :=
  List.filter_cons

/-- A visitor is led past the leaves in the fields of a node. -/
theorem visitFields_eq_flatMap (fields : Fields) :
    visit.visitFields visitor fields = (branches fields).flatMap (visit visitor) := by
  induction fields with
  | nil => rfl
  | cons entry rest ih =>
    obtain ⟨key, value⟩ := entry
    rw [visit.visitFields, ih, branches_cons]
    cases value.isBranch <;> rfl

end

/-- A visitor that goes on everywhere is led to the nodes in the order of a walk. -/
theorem visit_reaching (value : Value) : value.visit .reaching = value.preorder := by
  induction value using induction_on_held with
  | hstep value ih =>
    cases value with
    | array items =>
      rw [visit, visitItems_eq_flatMap, preorder, preorder_ofItems]
      exact List.flatMap_congr ih
    | node tag fields =>
      have hbranches : (branches fields).flatMap (visit .reaching) =
          (branches fields).flatMap preorder :=
        List.flatMap_congr fun part hpart => ih part (List.mem_of_mem_filter hpart)
      rw [preorder, preorder_ofFields, ← hbranches, ← visitFields_eq_flatMap]
      rfl
    | _ => rfl

/-- The loop of a walk ends, and what it yields are the nodes in the order of a recursion over
the tree: each occurrence of a node once, before the nodes inside it.  A visitor that goes on
everywhere is led to the nodes in the same order. -/
theorem walk_yields_preorder (value : Value) :
    (∃ rounds ≤ value.size, walkLoop.EndsAfter rounds ⟨[value], []⟩ ⟨[], value.walk⟩) ∧
      value.walk = value.preorder ∧ value.IsPreorder value.walk ∧
      value.visit .reaching = value.walk := by
  have hwalk := walk_eq_preorder value
  refine ⟨?_, hwalk, ?_, ?_⟩
  · obtain ⟨rounds, hrounds, hends⟩ := walkLoop_endsAfter [value] []
    exact ⟨rounds, hrounds, hends⟩
  · rw [hwalk]
    exact isPreorder_preorder value
  · rw [hwalk, visit_reaching]

end Value

end Debundle
