import Debundle.Proofs.Rename.Tally
import Mathlib.Data.Set.Card

/-!
# Counted positions

The tally of a renaming counts as the walk goes on, the rule marks positions in the tree.
Both come to the same: a mark at a position inside a value is a mark inside the child that
the renaming enters on the way there, and no two fields of a node have one name, so the
children of a value share no position.
-/

namespace Debundle

open Renaming

namespace Plan

/-- What a plan counts at the node itself. -/
def own : Plan → Tally
  | .keep => {}
  | .refer _ => { renamed := 1 }
  | .enter _ _ _ tally => tally

end Plan

namespace Renaming

/-- The references that a renaming gives the word of their role. -/
def renamedReferences (registry : Registry) (roles : Roles) (root : Value) : Set Position :=
  {position | ∃ value, Change registry roles root position value ∧ value.kind = .identifier}

/-- The calls of `require` whose arguments a renaming replaces. -/
def rewrittenCalls (registry : Registry) (roles : Roles) (root : Value) : Set Position :=
  {position | ∃ module, Change registry roles root (position ++ [.field "arguments"])
    (.array [requirePath module])}

/-- The positions that lead to a child by its step, and then on as is given for it. -/
def underSteps (children : List (Step × Set Position)) : Set Position :=
  {position | ∃ child ∈ children, ∃ rest ∈ child.2, position = child.1 :: rest}

theorem encard_underSteps_nil : (underSteps []).encard = 0 := by
  simp [underSteps]

theorem encard_underSteps_cons {step : Step} {inside : Set Position}
    {children : List (Step × Set Position)} (hnew : step ∉ children.map Prod.fst) :
    (underSteps ((step, inside) :: children)).encard =
      inside.encard + (underSteps children).encard := by
  have hsplit : underSteps ((step, inside) :: children) =
      Set.image (List.cons step) inside ∪ underSteps children := by
    ext position
    simp [underSteps, eq_comm]
  have hdisjoint : Disjoint (Set.image (List.cons step) inside) (underSteps children) := by
    rw [Set.disjoint_left]
    rintro position ⟨rest, -, rfl⟩ ⟨child, hchild, other, -, hsame⟩
    have hstep : step = child.1 := (List.cons.inj hsame).1
    exact hnew (hstep ▸ List.mem_map_of_mem hchild)
  rw [hsplit, Set.encard_union_eq hdisjoint, List.cons_injective.encard_image]

/-- What the tally counts at the nodes that a renaming looks at, the marks show at their
positions. -/
structure CountedBy (registry : Registry) (count : Tally → Nat)
    (marks : Roles → Value → Set Position) : Prop where
  count_empty : count {} = 0
  count_append : ∀ left right, count (left ++ right) = count left + count right
  not_isEmpty : ∀ {roles value position}, position ∈ marks roles value → roles.isEmpty = false
  at?_isSome : ∀ {roles value position}, position ∈ marks roles value →
    ∃ old, value.at? position = some old
  isNode_of_nil_mem : ∀ {roles value}, [] ∈ marks roles value → value.isNode = true
  nil_of_plan : ∀ {roles tag fields plan},
    Plan.ofNode registry roles (.node tag fields) = .ok plan →
    ([] ∈ marks roles (.node tag fields) ∧ count plan.own = 1) ∨
      ([] ∉ marks roles (.node tag fields) ∧ count plan.own = 0)
  cons_mem_iff : ∀ {roles inner value step child rest}, value.child? step = some child →
    HoldInside roles value inner →
    (step :: rest ∈ marks roles value ↔
      Enters registry roles value step ∧ rest ∈ marks inner child)

end Renaming

namespace Value

variable {registry : Registry} {count : Tally → Nat} {marks : Roles → Value → Set Position}

/-- The tally of a renaming of the value tells the number of marks in it. -/
def IsCounted (registry : Registry) (count : Tally → Nat)
    (marks : Roles → Value → Set Position) (value : Value) : Prop :=
  ∀ roles edit tally, value.rename registry roles = .ok (edit, tally) →
    (marks roles value).encard = count tally

/-- The marks inside the field `key`. -/
def fieldMarks (marks : Roles → Value → Set Position) (inner : Roles) (enters : String → Bool)
    (arguments : Option Value) (key : String) (value : Value) : Set Position :=
  {rest | (enters key = true ∧ (arguments.filter fun _ => key == "arguments") = none) ∧
    rest ∈ marks inner value}

variable {roles inner : Roles} {items : List Value} {tally : Tally} {enters : String → Bool}
  {arguments : Option Value} {value : Value} {fields : Fields} {tag : String} {plan : Plan}
  (hcounted : CountedBy registry count marks)

include hcounted

theorem encard_items {edit : Edit (List Value)}
    (hitems : ∀ item ∈ items, IsCounted registry count marks item) (start : Nat)
    (hrename : rename.renameItems registry roles items = .ok (edit, tally)) :
    (underSteps ((items.zipIdx start).map fun child =>
      (Step.item child.2, marks roles child.1))).encard = count tally := by
  induction items generalizing edit tally start with
  | nil =>
    cases hrename
    rw [hcounted.count_empty]
    exact encard_underSteps_nil
  | cons item rest ih =>
    simp only [rename.renameItems, Attempt.bind_eq_ok_iff, Attempt.pure_eq_ok_iff,
      Prod.mk.injEq] at hrename
    obtain ⟨⟨head, here⟩, hhead, ⟨tail, below⟩, htail, -, rfl⟩ := hrename
    rw [List.zipIdx_cons, List.map_cons, encard_underSteps_cons, hcounted.count_append,
      hitems item List.mem_cons_self _ _ _ hhead,
      ih (fun other hother => hitems other (.tail _ hother)) (start + 1) htail, Nat.cast_add]
    simp only [List.map_map, List.mem_map, not_exists, not_and]
    rintro ⟨other, index⟩ hother hsame
    have hlater := List.le_snd_of_mem_zipIdx hother
    have hindex : index = start := by simpa using hsame
    omega

theorem encard_field {key : String} {edit : Edit Value}
    (hvalue : IsCounted registry count marks value)
    (hrename : renameField registry roles enters arguments key value = .ok (edit, tally)) :
    (fieldMarks marks roles enters arguments key value).encard = count tally := by
  rw [renameField] at hrename
  split at hrename
  · rename_i replaced hreplaced
    cases hrename
    simp [fieldMarks, hreplaced, hcounted.count_empty]
  · rename_i hnone
    split at hrename
    · rename_i henters
      rw [← hvalue _ _ _ hrename]
      simp [fieldMarks, henters, hnone]
    · rename_i henters
      cases hrename
      simp [fieldMarks, henters, hcounted.count_empty]

theorem encard_fields {edit : Edit Fields}
    (hnodup : (Fields.keys fields).Nodup)
    (hfields : ∀ entry ∈ fields, IsCounted registry count marks entry.2)
    (hrename : rename.renameFields registry roles enters arguments fields = .ok (edit, tally)) :
    (underSteps (fields.map fun entry => (Step.field entry.1,
      fieldMarks marks roles enters arguments entry.1 entry.2))).encard = count tally := by
  induction fields generalizing edit tally with
  | nil =>
    cases hrename
    rw [hcounted.count_empty]
    exact encard_underSteps_nil
  | cons entry rest ih =>
    obtain ⟨key, value⟩ := entry
    simp only [renameFields_cons, Attempt.bind_eq_ok_iff, Attempt.pure_eq_ok_iff,
      Prod.mk.injEq] at hrename
    obtain ⟨⟨head, here⟩, hhead, ⟨tail, below⟩, htail, result, -, -, rfl⟩ := hrename
    rw [Fields.keys, List.map_cons, List.nodup_cons] at hnodup
    rw [List.map_cons, encard_underSteps_cons, hcounted.count_append,
      encard_field hcounted (hfields _ List.mem_cons_self) hhead,
      ih hnodup.2 (fun other hother => hfields other (.tail _ hother)) htail, Nat.cast_add]
    simp only [List.map_map, List.mem_map, not_exists, not_and]
    intro other hother hsame
    have hkey : other.1 = key := by simpa using hsame
    exact hnodup.1 (List.mem_map.2 ⟨other, hother, hkey⟩)

/-- Inside a list the marks are those of its items. -/
theorem marks_array (hinner : HoldInside roles (.array items) inner) :
    marks roles (.array items) =
      underSteps (items.zipIdx.map fun child => (.item child.2, marks inner child.1)) := by
  ext position
  simp only [underSteps, List.mem_map, Prod.exists, Set.mem_ofPred_eq]
  constructor
  · intro hmark
    cases position with
    | nil => cases hcounted.isNode_of_nil_mem hmark
    | cons step rest =>
      obtain ⟨old, hold⟩ := hcounted.at?_isSome hmark
      obtain ⟨child, hchild, -⟩ := Option.bind_eq_some_iff.1 hold
      have hinside := ((hcounted.cons_mem_iff hchild hinner).1 hmark).2
      cases step with
      | item index =>
        exact ⟨_, _, ⟨child, index, List.mem_zipIdx_iff_getElem?.2 hchild, rfl⟩, rest, hinside, rfl⟩
      | field key => cases hchild
  · rintro ⟨step, inside, ⟨child, index, hmem, hsame⟩, rest, hrest, rfl⟩
    cases hsame
    have hchild : (Value.array items).child? (.item index) = some child :=
      List.mem_zipIdx_iff_getElem?.1 hmem
    exact (hcounted.cons_mem_iff hchild hinner).2 ⟨⟨rfl, by simp⟩, hrest⟩

/-- Inside a node the marks are those of the fields that the renaming enters. -/
theorem marks_node (hnodup : (Fields.keys fields).Nodup)
    (hinside : Plan.GoesInside registry roles (.node tag fields) inner enters arguments) :
    marks roles (.node tag fields) \ {[]} =
      underSteps (fields.map fun entry => (.field entry.1,
        fieldMarks marks inner enters arguments entry.1 entry.2)) := by
  ext position
  simp only [underSteps, List.mem_map, Prod.exists, Set.mem_ofPred_eq, Set.mem_sdiff,
    Set.mem_singleton_iff]
  constructor
  · rintro ⟨hmark, hcons⟩
    cases position with
    | nil => exact absurd rfl hcons
    | cons step rest =>
      obtain ⟨old, hold⟩ := hcounted.at?_isSome hmark
      obtain ⟨child, hchild, -⟩ := Option.bind_eq_some_iff.1 hold
      obtain ⟨henters, hrest⟩ := (hcounted.cons_mem_iff hchild hinside.inside).1 hmark
      cases step with
      | item index => cases hchild
      | field key =>
        exact ⟨_, _, ⟨key, child, Fields.mem_of_get? hchild, rfl⟩, rest,
          ⟨hinside.enters_iff.1 henters, hrest⟩, rfl⟩
  · rintro ⟨step, inside, ⟨key, child, hmem, hsame⟩, rest, hrest, rfl⟩
    cases hsame
    have hchild : (Value.node tag fields).child? (.field key) = some child :=
      Fields.get?_of_mem hnodup hmem
    exact ⟨(hcounted.cons_mem_iff hchild hinside.inside).2
      ⟨hinside.enters_iff.2 hrest.1, hrest.2⟩, by simp⟩

omit hcounted in
/-- A node that skips all its fields declares nothing. -/
theorem scopeNames_of_skips (hskips : ∀ key, (Value.node tag fields).skips key = true) :
    (Value.node tag fields).scopeNames = .ok [] := by
  have hbody := hskips "body"
  simp only [scopeNames]
  split
  case h_5 => rfl
  all_goals
    rename_i hkind
    simp [skips, kind, hkind] at hbody

/-- Where the renaming does not look inside a node there are no marks inside. -/
theorem marks_of_skips (hskips : ∀ key, (Value.node tag fields).skips key = true) :
    marks roles (.node tag fields) \ {[]} = ∅ := by
  rw [Set.eq_empty_iff_forall_notMem]
  rintro position ⟨hmark, hcons⟩
  cases position with
  | nil => exact hcons rfl
  | cons step rest =>
    obtain ⟨old, hold⟩ := hcounted.at?_isSome hmark
    obtain ⟨child, hchild, -⟩ := Option.bind_eq_some_iff.1 hold
    obtain ⟨⟨hentered, -⟩, -⟩ :=
      (hcounted.cons_mem_iff hchild (.self (scopeNames_of_skips hskips))).1 hmark
    cases step with
    | item index => cases hchild
    | field key => cases hentered.symm.trans (hskips key)

/-- The marks of a node are those inside it, and the node itself if its plan counts it. -/
theorem encard_node {below : Tally}
    (hplan : Plan.ofNode registry roles (.node tag fields) = .ok plan)
    (hbelow : (marks roles (.node tag fields) \ {[]}).encard = count below) :
    (marks roles (.node tag fields)).encard = count (plan.own ++ below) := by
  rw [hcounted.count_append, Nat.cast_add, ← hbelow, add_comm]
  rcases hcounted.nil_of_plan hplan with ⟨hmark, hone⟩ | ⟨hnone, hzero⟩
  · rw [hone, Nat.cast_one, Set.encard_sdiff_singleton_add_one hmark]
  · rw [hzero, Nat.cast_zero, add_zero, Set.sdiff_singleton_eq_self hnone]

/-- What is kept without a look inside is marked nowhere inside. -/
theorem encard_of_skips (hplan : Plan.ofNode registry roles (.node tag fields) = .ok plan)
    (hskips : ∀ key, (Value.node tag fields).skips key = true) :
    (marks roles (.node tag fields)).encard = count (plan.own ++ {}) := by
  refine encard_node hcounted hplan ?_
  rw [marks_of_skips hcounted hskips, Set.encard_empty, hcounted.count_empty, Nat.cast_zero]

theorem encard_of_forall_notMem
    (hnone : ∀ position, position ∉ marks roles value) : (marks roles value).encard = count {} := by
  rw [Set.eq_empty_iff_forall_notMem.2 hnone, Set.encard_empty, hcounted.count_empty, Nat.cast_zero]

theorem encard_of_isEmpty
    (hempty : roles.isEmpty = true) (value : Value) : (marks roles value).encard = count {} := by
  refine encard_of_forall_notMem hcounted fun position hmark => ?_
  cases (hcounted.not_isEmpty hmark).symm.trans hempty

theorem encard_leaf (hleaf : value.isBranch = false) :
    (marks roles value).encard = count {} := by
  refine encard_of_forall_notMem hcounted fun position hmark => ?_
  cases position with
  | nil =>
    have hnode := hcounted.isNode_of_nil_mem hmark
    cases value <;> simp [isBranch, isNode] at hleaf hnode
  | cons step rest =>
    obtain ⟨old, hold⟩ := hcounted.at?_isSome hmark
    cases value <;> simp [isBranch, child?] at hleaf hold

theorem isCounted_node (hnodup : (Fields.keys fields).Nodup)
    (hfields : ∀ entry ∈ fields, IsCounted registry count marks entry.2) :
    IsCounted registry count marks (.node tag fields) := by
  intro roles edit tally hrename
  cases renameRun hrename with
  | idle hempty => exact encard_of_isEmpty hcounted hempty _
  | leaf hleaf => cases hleaf
  | keep hplan => exact encard_of_skips hcounted hplan (Plan.ofNode_eq_keep hplan).1
  | refer hplan =>
    obtain ⟨name, hkind, -⟩ := Plan.ofNode_eq_refer hplan
    refine encard_of_skips hcounted hplan fun key => ?_
    simp only [skips, kind, hkind]
  | fields hplan hrenamed =>
    refine encard_node hcounted hplan ?_
    rw [marks_node hcounted hnodup (Plan.ofNode_eq_enter hplan),
      encard_fields hcounted hnodup hfields hrenamed]

theorem isCounted_array (hitems : ∀ item ∈ items, IsCounted registry count marks item) :
    IsCounted registry count marks (.array items) := by
  intro roles edit tally hrename
  cases renameRun hrename with
  | idle hempty => exact encard_of_isEmpty hcounted hempty _
  | leaf hleaf => cases hleaf
  | items hnames hinner hrenamed =>
    rw [marks_array hcounted (.of_scopeNames hnames hinner),
      encard_items hcounted hitems 0 hrenamed]

/-- The tally tells the number of marks. -/
theorem FieldsDiffer.isCounted
    (hdiffer : value.FieldsDiffer) : IsCounted registry count marks value := by
  refine hdiffer.induction (fun value hleaf => ?_)
    (fun items hitems => isCounted_array hcounted hitems)
    (fun tag fields hnodup hfields => isCounted_node hcounted hnodup hfields)
  intro roles edit tally hrename
  cases renameRun hrename with
  | idle hempty => exact encard_of_isEmpty hcounted hempty _
  | leaf hleaf => exact encard_leaf hcounted hleaf
  | _ => cases hleaf

end Value

namespace Renaming

variable {registry : Registry} {roles : Roles} {root : Value} {position : Position}

theorem nil_notMem_renamedReferences (hkind : root.kind ≠ .identifier) :
    [] ∉ renamedReferences registry roles root := by
  rintro ⟨value, hchange, -⟩
  obtain ⟨tag, fields, -, -, rfl, hidentifier, -⟩ := change_nil_iff.1 hchange
  exact hkind hidentifier

/-- The tally counts the references that are renamed. -/
theorem countedBy_renamedReferences :
    CountedBy registry Tally.renamed (renamedReferences registry) := by
  constructor
  case count_empty => rfl
  case count_append => exact Tally.renamed_append
  case not_isEmpty =>
    rintro roles root position ⟨value, hchange, -⟩
    exact hchange.not_isEmpty
  case at?_isSome =>
    rintro roles root position ⟨value, hchange, -⟩
    exact hchange.at?_isSome
  case isNode_of_nil_mem =>
    rintro roles root ⟨value, hchange, -⟩
    obtain ⟨tag, fields, -, -, rfl, -⟩ := change_nil_iff.1 hchange
    rfl
  case nil_of_plan =>
    intro roles tag fields plan hplan
    cases plan with
    | keep =>
      refine .inr ⟨?_, rfl⟩
      rintro ⟨value, hchange, -⟩
      obtain ⟨_, _, name, role, hsame, hkind, hname, hrole, -⟩ := change_nil_iff.1 hchange
      cases hsame
      simp [(Plan.ofNode_eq_keep hplan).2 name hname hkind] at hrole
    | refer role =>
      obtain ⟨name, hkind, hname, hrole⟩ := Plan.ofNode_eq_refer hplan
      exact .inl ⟨⟨_, change_nil_of_role hkind hname hrole, hkind⟩, rfl⟩
    | enter inner enters arguments own =>
      refine .inr ⟨nil_notMem_renamedReferences (Plan.ofNode_eq_enter hplan).kind, ?_⟩
      rcases Plan.ofNode_counts hplan with ⟨-, rfl⟩ | hcounts
      · rfl
      · exact hcounts.renamed_eq
  case cons_mem_iff =>
    intro roles inner root step child rest hchild hinner
    simp only [renamedReferences, Set.mem_ofPred_eq, change_cons_iff hchild hinner]
    constructor
    · rintro ⟨value, ⟨-, -, module, -, rfl⟩ | ⟨henters, hchange⟩, hkind⟩
      · cases hkind
      · exact ⟨henters, value, hchange, hkind⟩
    · rintro ⟨henters, value, hchange, hkind⟩
      exact ⟨value, .inr ⟨henters, hchange⟩, hkind⟩

theorem mem_rewrittenCalls_iff :
    position ∈ rewrittenCalls registry roles root ↔
      (∃ module, RequiresAt registry roles root position module) ∧
        Visited registry roles root position := by
  constructor
  · rintro ⟨module, hchange⟩
    generalize hwhere : position ++ [.field "arguments"] = replaced at hchange
    generalize hwhat : Value.array [requirePath module] = value at hchange
    cases hchange with
    | reference => cases hwhat
    | argument hrequires hvisited =>
      cases List.append_cancel_right hwhere
      exact ⟨⟨_, hrequires⟩, hvisited⟩
  · rintro ⟨⟨module, hrequires⟩, hvisited⟩
    exact ⟨module, .argument hrequires hvisited⟩

/-- The tally counts the calls whose arguments are replaced. -/
theorem countedBy_rewrittenCalls :
    CountedBy registry Tally.rewritten (rewrittenCalls registry) := by
  constructor
  case count_empty => rfl
  case count_append => exact Tally.rewritten_append
  case not_isEmpty =>
    rintro roles root position ⟨module, hchange⟩
    exact hchange.not_isEmpty
  case at?_isSome =>
    intro roles root position hmark
    obtain ⟨⟨module, call, -, hcall, -⟩, -⟩ := mem_rewrittenCalls_iff.1 hmark
    exact ⟨call, hcall⟩
  case isNode_of_nil_mem =>
    intro roles root hmark
    obtain ⟨⟨module, hrequires⟩, -⟩ := mem_rewrittenCalls_iff.1 hmark
    obtain ⟨callee, hcall, -⟩ := requiresAt_nil_iff.1 hrequires
    have hkind := hcall.kind
    cases root with
    | node => rfl
    | _ => cases hkind
  case nil_of_plan =>
    intro roles tag fields plan hplan
    simp only [mem_rewrittenCalls_iff, visited_nil, and_true]
    cases plan with
    | keep =>
      refine .inr ⟨?_, rfl⟩
      rintro ⟨module, hrequires⟩
      cases hrequires.not_skipped.symm.trans ((Plan.ofNode_eq_keep hplan).1 "arguments")
    | refer role =>
      obtain ⟨name, hkind, -⟩ := Plan.ofNode_eq_refer hplan
      refine .inr ⟨?_, rfl⟩
      exact not_exists.2 (Plan.not_requiresAt_of_kind (by simp [Value.kind, hkind]))
    | enter inner enters arguments own =>
      have hrewritten : own.rewritten = arguments.isSome.toNat := by
        rcases Plan.ofNode_counts hplan with ⟨rfl, rfl⟩ | hcounts
        · rfl
        · exact hcounts.rewritten_eq
      rcases (Plan.ofNode_eq_enter hplan).arguments_eq with ⟨module, hrequires, rfl⟩ | ⟨rfl, hnone⟩
      · exact .inl ⟨⟨module, hrequires⟩, hrewritten⟩
      · exact .inr ⟨not_exists.2 hnone, hrewritten⟩
  case cons_mem_iff =>
    intro roles inner root step child rest hchild hinner
    simp only [mem_rewrittenCalls_iff, requiresAt_cons_iff hchild hinner,
      visited_cons_iff hchild hinner]
    exact and_left_comm

end Renaming

end Debundle
