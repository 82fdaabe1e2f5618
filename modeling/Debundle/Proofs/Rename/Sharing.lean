import Debundle.Proofs.Rename.Counting

/-!
# What a renaming shares with the tree before

A renaming rebuilds only the values in which something changed.  What it keeps is not
copied: the tree after it holds the very values of the tree before.  These are the values
that neither contain a new value nor lie in one, where the new values are the names of the
renamed references and the arguments of the rewritten calls.
-/

namespace Debundle

open Renaming

namespace Renaming

/-- The tree after a renaming holds the very value of the tree before at the position.  It does
so everywhere inside a value that is kept; a value that is rebuilt shares what is skipped in it,
and what its children share. -/
inductive SharedBy (registry : Registry)
    (edits : Roles → Value → Except Fault (Edit Value × Tally)) :
    Roles → Value → Position → Prop where
  | kept {roles : Roles} {value : Value} {position : Position} {tally : Tally} :
      edits roles value = .ok (.kept, tally) → SharedBy registry edits roles value position
  | refer {roles : Roles} {tag : String} {fields : Fields} {role : Role} {key : String}
      {rest : Position} :
      Plan.ofNode registry roles (.node tag fields) = .ok (.refer role) → key ≠ "name" →
      SharedBy registry edits roles (.node tag fields) (.field key :: rest)
  | item {roles inner : Roles} {items names : List Value} {index : Nat} {item : Value}
      {rest : Position} :
      Value.hoistedNames (.array items) = .ok names → roles.without names = .ok inner →
      items[index]? = some item → SharedBy registry edits inner item rest →
      SharedBy registry edits roles (.array items) (.item index :: rest)
  | skipped {roles inner : Roles} {tag : String} {fields : Fields} {enters : String → Bool}
      {arguments : Option Value} {own : Tally} {key : String} {child : Value}
      {rest : Position} :
      Plan.ofNode registry roles (.node tag fields) =
        .ok (.enter inner enters arguments own) →
      (arguments.filter fun _ => key == "arguments") = none → enters key = false →
      Fields.get? fields key = some child →
      SharedBy registry edits roles (.node tag fields) (.field key :: rest)
  | field {roles inner : Roles} {tag : String} {fields : Fields} {enters : String → Bool}
      {arguments : Option Value} {own : Tally} {key : String} {child : Value}
      {rest : Position} :
      Plan.ofNode registry roles (.node tag fields) =
        .ok (.enter inner enters arguments own) →
      (arguments.filter fun _ => key == "arguments") = none → enters key = true →
      Fields.get? fields key = some child → SharedBy registry edits inner child rest →
      SharedBy registry edits roles (.node tag fields) (.field key :: rest)

/-- The renamed tree holds the very value of the tree before at the position. -/
abbrev SharedAt (registry : Registry) : Roles → Value → Position → Prop :=
  SharedBy registry fun roles value => value.rename registry roles

/-- The renaming puts a new value at the position. -/
inductive PutAt (registry : Registry) (roles : Roles) (root : Value) : Position → Prop where
  | name {position : Position} : position ∈ renamedReferences registry roles root →
      PutAt registry roles root (position ++ [.field "name"])
  | arguments {position : Position} : position ∈ rewrittenCalls registry roles root →
      PutAt registry roles root (position ++ [.field "arguments"])

/-- The value at the position neither contains a new value nor lies in one. -/
def Untouched (registry : Registry) (roles : Roles) (root : Value) (position : Position) :
    Prop :=
  ∀ put, PutAt registry roles root put → ¬ position <+: put ∧ ¬ put <+: position

variable {registry : Registry} {roles inner : Roles} {root child : Value} {step : Step}
  {rest position : Position}

theorem not_putAt_nil : ¬ PutAt registry roles root [] := by
  intro hput
  generalize hnil : ([] : Position) = put at hput
  cases hput <;> simp at hnil

theorem untouched_nil_iff :
    Untouched registry roles root [] ↔ ∀ put, ¬ PutAt registry roles root put := by
  constructor
  · exact fun huntouched put hput => (huntouched put hput).1 List.nil_prefix
  · exact fun hnone put hput => absurd hput (hnone put)

theorem untouched_cons_iff :
    Untouched registry roles root (step :: rest) ↔
      ∀ below, PutAt registry roles root (step :: below) → ¬ rest <+: below ∧ ¬ below <+: rest := by
  constructor
  · intro huntouched below hput
    simpa [List.cons_prefix_cons] using huntouched _ hput
  · intro hbelow put hput
    cases put with
    | nil => exact absurd hput not_putAt_nil
    | cons other below =>
      by_cases hstep : other = step
      · subst hstep
        simpa [List.cons_prefix_cons] using hbelow below hput
      · simp [List.cons_prefix_cons, hstep, Ne.symm hstep]

/-- A field of a marked value lies inside a child that is entered, unless the value itself is
marked. -/
theorem CountedBy.exists_append_iff {count : Tally → Nat} {marks : Roles → Value → Set Position}
    (hcounted : CountedBy registry count marks) (hchild : root.child? step = some child)
    (hinner : HoldInside roles root inner) (key : String) :
    (∃ marked ∈ marks roles root, marked ++ [.field key] = step :: rest) ↔
      (step = .field key ∧ rest = [] ∧ [] ∈ marks roles root) ∨
      (Enters registry roles root step ∧
        ∃ marked ∈ marks inner child, marked ++ [.field key] = rest) := by
  constructor
  · rintro ⟨marked, hmark, hsame⟩
    cases marked with
    | nil =>
      obtain ⟨rfl, rfl⟩ := List.cons.inj hsame
      exact .inl ⟨rfl, rfl, hmark⟩
    | cons first inside =>
      obtain ⟨rfl, hrest⟩ := List.cons.inj hsame
      obtain ⟨henters, hinside⟩ := (hcounted.cons_mem_iff hchild hinner).1 hmark
      exact .inr ⟨henters, inside, hinside, hrest⟩
  · rintro (⟨rfl, rfl, hmark⟩ | ⟨henters, inside, hinside, rfl⟩)
    · exact ⟨[], hmark, rfl⟩
    · exact ⟨step :: inside, (hcounted.cons_mem_iff hchild hinner).2 ⟨henters, hinside⟩, rfl⟩

theorem putAt_iff :
    PutAt registry roles root position ↔
      (∃ marked ∈ renamedReferences registry roles root, marked ++ [.field "name"] = position) ∨
      (∃ marked ∈ rewrittenCalls registry roles root,
        marked ++ [.field "arguments"] = position) := by
  constructor
  · intro hput
    cases hput with
    | name hmark => exact .inl ⟨_, hmark, rfl⟩
    | arguments hmark => exact .inr ⟨_, hmark, rfl⟩
  · rintro (⟨marked, hmark, rfl⟩ | ⟨marked, hmark, rfl⟩)
    · exact .name hmark
    · exact .arguments hmark

/-- A new value inside a value is one of its own, or lies in a child that is entered. -/
theorem putAt_cons_iff (hchild : root.child? step = some child)
    (hinner : HoldInside roles root inner) :
    PutAt registry roles root (step :: rest) ↔
      (step = .field "name" ∧ rest = [] ∧ [] ∈ renamedReferences registry roles root) ∨
      (step = .field "arguments" ∧ rest = [] ∧ [] ∈ rewrittenCalls registry roles root) ∨
      (Enters registry roles root step ∧ PutAt registry inner child rest) := by
  rw [putAt_iff, putAt_iff, countedBy_renamedReferences.exists_append_iff hchild hinner,
    countedBy_rewrittenCalls.exists_append_iff hchild hinner, and_or_left, or_or_or_comm, or_assoc]

/-- Whether a child that is entered is touched is told by what is new inside it. -/
theorem untouched_cons_iff_of_enters (hchild : root.child? step = some child)
    (hinner : HoldInside roles root inner) (hroot : [] ∉ renamedReferences registry roles root)
    (henters : Enters registry roles root step) :
    Untouched registry roles root (step :: rest) ↔ Untouched registry inner child rest := by
  have hput : ∀ below, PutAt registry roles root (step :: below) ↔
      PutAt registry inner child below := by
    intro below
    rw [putAt_cons_iff hchild hinner]
    constructor
    · rintro (⟨-, -, hmark⟩ | ⟨hstep, -, hmark⟩ | ⟨-, hinside⟩)
      · exact absurd hmark hroot
      · exact absurd ⟨hstep, (mem_rewrittenCalls_iff.1 hmark).1⟩ henters.2
      · exact hinside
    · exact fun hinside => .inr (.inr ⟨henters, hinside⟩)
  simp only [untouched_cons_iff, hput]
  rfl

/-- A child that is not entered is untouched, unless it is new itself. -/
theorem untouched_cons_of_not_enters (hchild : root.child? step = some child)
    (hinner : HoldInside roles root inner) (henters : ¬ Enters registry roles root step)
    (hname : step = .field "name" → [] ∉ renamedReferences registry roles root)
    (harguments : step = .field "arguments" → [] ∉ rewrittenCalls registry roles root) :
    Untouched registry roles root (step :: rest) := by
  rw [untouched_cons_iff]
  intro below hput
  rcases (putAt_cons_iff hchild hinner).1 hput with ⟨hstep, -, hmark⟩ | ⟨hstep, -, hmark⟩ |
    ⟨hentered, -⟩
  · exact absurd hmark (hname hstep)
  · exact absurd hmark (harguments hstep)
  · exact absurd hentered henters

/-- Neither a new child nor anything inside it is untouched. -/
theorem not_untouched_cons (hput : PutAt registry roles root [step]) :
    ¬ Untouched registry roles root (step :: rest) :=
  fun huntouched => (untouched_cons_iff.1 huntouched [] hput).2 List.nil_prefix

variable {tag key : String} {fields : Fields}

/-- In a reference that is renamed only the name is new. -/
theorem untouched_refer_iff {role : Role}
    (hplan : Plan.ofNode registry roles (.node tag fields) = .ok (.refer role))
    (hchild : (Value.node tag fields).child? (.field key) = some child) :
    Untouched registry roles (.node tag fields) (.field key :: rest) ↔ key ≠ "name" := by
  obtain ⟨name, hkind, hname, hrole⟩ := Plan.ofNode_eq_refer hplan
  have hskips : ∀ key, (Value.node tag fields).skips key = true := by
    intro key
    simp only [Value.skips, Value.kind, hkind]
  constructor
  · rintro huntouched rfl
    have hmark : [] ∈ renamedReferences registry roles (.node tag fields) :=
      ⟨_, change_nil_of_role hkind hname hrole, hkind⟩
    have hput := PutAt.name hmark
    exact not_untouched_cons hput huntouched
  · intro hkey
    refine untouched_cons_of_not_enters hchild (.self (Value.scopeNames_of_skips hskips)) ?_
      (fun hstep => absurd (Step.field.inj hstep) hkey) (fun _ hcall => ?_)
    · rintro ⟨hentered, -⟩
      cases hentered.symm.trans (hskips key)
    · obtain ⟨⟨module, hrequires⟩, -⟩ := mem_rewrittenCalls_iff.1 hcall
      exact Plan.not_requiresAt_of_kind (by simp [Value.kind, hkind]) module hrequires

/-- In a node that is entered the replaced arguments are new, and what is new in the fields
that are entered. -/
theorem untouched_field_iff {enters : String → Bool} {arguments : Option Value}
    (hinside : Plan.GoesInside registry roles (.node tag fields) inner enters arguments)
    (hchild : (Value.node tag fields).child? (.field key) = some child) :
    Untouched registry roles (.node tag fields) (.field key :: rest) ↔
      (arguments.filter fun _ => key == "arguments") = none ∧
        (enters key = true → Untouched registry inner child rest) := by
  have hroot : [] ∉ renamedReferences registry roles (.node tag fields) :=
    nil_notMem_renamedReferences hinside.kind
  cases hreplaced : arguments.filter fun _ => key == "arguments" with
  | some replaced =>
    have hnew : key = "arguments" ∧
        ∃ module, RequiresAt registry roles (.node tag fields) [] module := by
      by_contra hnot
      cases hreplaced.symm.trans (hinside.filter_eq_none_iff.2 hnot)
    obtain ⟨rfl, hrequires⟩ := hnew
    have hput := PutAt.arguments (mem_rewrittenCalls_iff.2 ⟨hrequires, visited_nil⟩)
    exact iff_of_false (not_untouched_cons hput) (by simp)
  | none =>
    cases henters : enters key with
    | true =>
      rw [untouched_cons_iff_of_enters hchild hinside.inside hroot
        (hinside.enters_iff.2 ⟨henters, hreplaced⟩)]
      simp
    | false =>
      refine iff_of_true (untouched_cons_of_not_enters hchild hinside.inside ?_
        (fun _ => hroot) ?_) (by simp)
      · rw [hinside.enters_iff, henters]
        simp
      · intro hstep hcall
        exact hinside.filter_eq_none_iff.1 hreplaced
          ⟨Step.field.inj hstep, (mem_rewrittenCalls_iff.1 hcall).1⟩

end Renaming

namespace Value

variable {registry : Registry} {roles : Roles} {value : Value} {edit : Edit Value}
  {tally : Tally}

/-- A value is kept exactly if no reference in it is renamed. -/
theorem FieldsDiffer.isKept_iff (hdiffer : value.FieldsDiffer)
    (hrename : value.rename registry roles = .ok (edit, tally)) :
    edit.isKept = true ↔ tally.renamed = 0 := by
  have haccounts := hdiffer.isAccountedFor roles edit tally hrename
  exact ⟨haccounts.renamed_eq_zero, haccounts.isKept trivial⟩

theorem FieldsDiffer.isKept_iff_not_putAt (hdiffer : value.FieldsDiffer)
    (hrename : value.rename registry roles = .ok (edit, tally)) :
    edit.isKept = true ↔ ∀ put, ¬ PutAt registry roles value put := by
  have hreferences := hdiffer.isCounted countedBy_renamedReferences roles edit tally hrename
  have hcalls := hdiffer.isCounted countedBy_rewrittenCalls roles edit tally hrename
  have hle := (hdiffer.isAccountedFor roles edit tally hrename).calls_le
  rw [hdiffer.isKept_iff hrename]
  constructor
  · intro hnone put hput
    have hrewritten : tally.rewritten = 0 := by
      rw [Tally.calls] at hle
      omega
    rw [hnone, Nat.cast_zero, Set.encard_eq_zero] at hreferences
    rw [hrewritten, Nat.cast_zero, Set.encard_eq_zero] at hcalls
    cases hput with
    | name hmark => exact Set.eq_empty_iff_forall_notMem.1 hreferences _ hmark
    | arguments hmark => exact Set.eq_empty_iff_forall_notMem.1 hcalls _ hmark
  · intro hnone
    have hempty : renamedReferences registry roles value = ∅ :=
      Set.eq_empty_iff_forall_notMem.2 fun position hmark => hnone _ (.name hmark)
    rw [hempty, Set.encard_empty] at hreferences
    exact_mod_cast hreferences.symm

theorem sharedAt_of_isKept (hrename : value.rename registry roles = .ok (edit, tally))
    (hkept : edit.isKept = true) (position : Position) :
    SharedAt registry roles value position := by
  cases edit with
  | kept => exact SharedBy.kept hrename
  | changed => cases hkept

variable {inner : Roles} {rest position : Position} {tag key : String} {fields : Fields}

/-- What a rebuilt list shares is what its items share. -/
theorem sharedAt_item_iff {items names : List Value} {index : Nat} {item : Value}
    (hrename : (Value.array items).rename registry roles = .ok (edit, tally))
    (hchanged : edit.isKept = false) (hnames : hoistedNames (.array items) = .ok names)
    (hinner : roles.without names = .ok inner) (hitem : items[index]? = some item) :
    SharedAt registry roles (.array items) (.item index :: rest) ↔
      SharedAt registry inner item rest := by
  constructor
  · intro hshared
    cases hshared with
    | kept hkept =>
      cases hkept.symm.trans hrename
      cases hchanged
    | item hothers hwithin hother hinside =>
      cases hnames.symm.trans hothers
      cases hinner.symm.trans hwithin
      cases hitem.symm.trans hother
      exact hinside
  · exact SharedBy.item hnames hinner hitem

/-- What a rebuilt node shares is what it skips, and what the other fields share. -/
theorem sharedAt_field_iff {enters : String → Bool} {arguments : Option Value} {own : Tally}
    {child : Value} (hrename : (Value.node tag fields).rename registry roles = .ok (edit, tally))
    (hchanged : edit.isKept = false)
    (hplan : Plan.ofNode registry roles (.node tag fields) =
      .ok (.enter inner enters arguments own)) (hchild : Fields.get? fields key = some child) :
    SharedAt registry roles (.node tag fields) (.field key :: rest) ↔
      (arguments.filter fun _ => key == "arguments") = none ∧
        (enters key = true → SharedAt registry inner child rest) := by
  constructor
  · intro hshared
    cases hshared with
    | kept hkept =>
      cases hkept.symm.trans hrename
      cases hchanged
    | refer hother => cases hplan.symm.trans hother
    | skipped hother hnone hskipped =>
      cases hplan.symm.trans hother
      exact ⟨hnone, fun henters => by cases henters.symm.trans hskipped⟩
    | field hother hnone henters hheld hinside =>
      cases hplan.symm.trans hother
      cases hchild.symm.trans hheld
      exact ⟨hnone, fun _ => hinside⟩
  · rintro ⟨hnone, hinside⟩
    cases henters : enters key with
    | true => exact SharedBy.field hplan hnone henters hchild (hinside henters)
    | false => exact SharedBy.skipped hplan hnone henters hchild

/-- A renamed reference shares all its fields but its name. -/
theorem sharedAt_refer_iff {role : Role}
    (hrename : (Value.node tag fields).rename registry roles = .ok (edit, tally))
    (hchanged : edit.isKept = false)
    (hplan : Plan.ofNode registry roles (.node tag fields) = .ok (.refer role)) :
    SharedAt registry roles (.node tag fields) (.field key :: rest) ↔ key ≠ "name" := by
  constructor
  · intro hshared
    cases hshared with
    | kept hkept =>
      cases hkept.symm.trans hrename
      cases hchanged
    | refer _ hkey => exact hkey
    | skipped hother => cases hplan.symm.trans hother
    | field hother => cases hplan.symm.trans hother
  · exact SharedBy.refer hplan

section

variable {fields : Fields} {renamed : Edit Fields} {inner : Roles} {enters : String → Bool}
  {arguments : Option Value} {key : String} {child : Value}

/-- A renaming of the fields renames each field that it enters. -/
theorem renamesTo_of_renameFields
    (hrename : rename.renameFields registry inner enters arguments fields = .ok (renamed, tally))
    (hchild : Fields.get? fields key = some child)
    (hnone : (arguments.filter fun _ => key == "arguments") = none)
    (henters : enters key = true) :
    ∃ after, Fields.get? (renamed.apply fields) key = some after ∧
      RenamesTo registry inner child after := by
  obtain ⟨after, hafter, hfield⟩ := (renameFields_eq_ok hrename).get? hchild
  rw [FieldRenamesTo, hnone] at hfield
  exact ⟨after, hafter, by simpa [henters] using hfield⟩

theorem get?_of_renameFields_skipped
    (hrename : rename.renameFields registry inner enters arguments fields = .ok (renamed, tally))
    (hchild : Fields.get? fields key = some child)
    (hnone : (arguments.filter fun _ => key == "arguments") = none)
    (hskipped : enters key = false) :
    Fields.get? (renamed.apply fields) key = some child := by
  obtain ⟨after, hafter, hfield⟩ := (renameFields_eq_ok hrename).get? hchild
  rw [FieldRenamesTo, hnone] at hfield
  have hsame : after = child := by simpa [hskipped] using hfield
  rw [hafter, hsame]

/-- A node that a plan goes inside is renamed field by field, unless there are no roles. -/
theorem RenamesTo.of_enter {tag : String} {own : Tally} {after : Value}
    (hrename : RenamesTo registry roles (.node tag fields) after)
    (hplan : Plan.ofNode registry roles (.node tag fields) =
      .ok (.enter inner enters arguments own)) :
    after = .node tag fields ∨
      ∃ renamed below, rename.renameFields registry inner enters arguments fields =
        .ok (renamed, below) ∧ after = .node tag (renamed.apply fields) := by
  obtain ⟨edit, tally, hrename, rfl⟩ := hrename
  cases renameRun hrename with
  | idle => exact .inl rfl
  | leaf => exact .inl rfl
  | keep => exact .inl rfl
  | refer hother => cases hplan.symm.trans hother
  | fields hother hfields =>
    cases hplan.symm.trans hother
    exact .inr ⟨_, _, hfields, Edit.apply_map _ _ _⟩

end

/-- A value is shared exactly if nothing new stands in it or around it. -/
theorem FieldsDiffer.sharedAt_iff (hdiffer : value.FieldsDiffer)
    (hrename : value.rename registry roles = .ok (edit, tally)) {part : Value}
    (hat : value.at? position = some part) :
    SharedAt registry roles value position ↔ Untouched registry roles value position := by
  induction position generalizing roles value edit tally with
  | nil =>
    rw [untouched_nil_iff, ← hdiffer.isKept_iff_not_putAt hrename]
    constructor
    · intro hshared
      cases hshared with
      | kept hkept =>
        cases hkept.symm.trans hrename
        rfl
    · exact fun hkept => sharedAt_of_isKept hrename hkept []
  | cons step rest ih =>
    cases hkept : edit.isKept with
    | true =>
      have hnone := (hdiffer.isKept_iff_not_putAt hrename).1 hkept
      exact iff_of_true (sharedAt_of_isKept hrename hkept _) fun put hput => absurd hput (hnone put)
    | false =>
      -- The value is rebuilt, and both sides are settled by the child on the way.
      obtain ⟨child, hchild, hrest⟩ := Option.bind_eq_some_iff.1 hat
      cases renameRun hrename with
      | idle => cases hkept
      | leaf => cases hkept
      | keep => cases hkept
      | refer hplan =>
        cases step with
        | item index => cases hchild
        | field key => rw [sharedAt_refer_iff hrename hkept hplan, untouched_refer_iff hplan hchild]
      | items hnames hinner hitems =>
        cases step with
        | field key => cases hchild
        | item index =>
          obtain ⟨_, -, _, _, hitem, -⟩ := getElem?_of_forall₂ (renameItems_eq_ok hitems) hchild
          rw [sharedAt_item_iff hrename hkept hnames hinner hchild,
            untouched_cons_iff_of_enters hchild (.of_scopeNames hnames hinner)
              (nil_notMem_renamedReferences (by simp [kind])) ⟨rfl, by simp⟩]
          exact ih (hdiffer.child _ hchild) hitem hrest
      | fields hplan hfields =>
        cases step with
        | item index => cases hchild
        | field key =>
          rw [sharedAt_field_iff hrename hkept hplan hchild,
            untouched_field_iff (Plan.ofNode_eq_enter hplan) hchild]
          refine and_congr_right fun hnone => imp_congr_right fun henters => ?_
          obtain ⟨_, -, _, _, hfield, -⟩ := renamesTo_of_renameFields hfields hchild hnone henters
          exact ih (hdiffer.child _ hchild) hfield hrest

/-- Where a value is shared, the tree after the renaming holds it at the same position. -/
theorem at?_of_sharedAt {after : Value} (hshared : SharedAt registry roles value position)
    (hrename : RenamesTo registry roles value after) : after.at? position = value.at? position := by
  induction hshared generalizing after with
  | kept hkept =>
    obtain ⟨_, _, hrename, rfl⟩ := hrename
    cases hkept.symm.trans hrename
    rfl
  | refer hplan hkey =>
    obtain ⟨_, _, hrename, rfl⟩ := hrename
    cases renameRun hrename with
    | idle => rfl
    | leaf => rfl
    | keep => rfl
    | refer => simp [Edit.apply, Fields.get?_set, hkey]
    | fields hother => cases hplan.symm.trans hother
  | item hnames hinner hitem _ ih =>
    obtain ⟨_, _, hrename, rfl⟩ := hrename
    cases renameRun hrename with
    | idle => rfl
    | leaf => rfl
    | items hothers hwithin hitems =>
      cases hnames.symm.trans hothers
      cases hinner.symm.trans hwithin
      obtain ⟨renamed, hrenamed, hchild⟩ := getElem?_of_forall₂ (renameItems_eq_ok hitems) hitem
      rw [Edit.apply_map, at?_cons, at?_cons, child?_array, child?_array, hrenamed, hitem]
      exact ih hchild
  | skipped hplan hnone hskipped hheld =>
    obtain rfl | ⟨renamed, below, hfields, rfl⟩ := hrename.of_enter hplan
    · rfl
    · rw [at?_cons, at?_cons, child?_node, child?_node, hheld,
        get?_of_renameFields_skipped hfields hheld hnone hskipped]
  | field hplan hnone henters hheld _ ih =>
    obtain rfl | ⟨renamed, below, hfields, rfl⟩ := hrename.of_enter hplan
    · rfl
    · obtain ⟨after, hafter, hchild⟩ :=
        renamesTo_of_renameFields hfields hheld hnone henters
      rw [at?_cons, at?_cons, child?_node, child?_node, hafter, hheld]
      exact ih hchild

end Value

/-- A tally tells what was done to a body, and the body is rebuilt no further than that. -/
structure Tally.Tells (registry : Registry) (roles : Roles) (body : Value) (edit : Edit Value)
    (tally : Tally) : Prop where
  changed : Value.ChangedAt (Change registry roles body) body (edit.apply body)
  renamed_eq : (renamedReferences registry roles body).encard = tally.renamed
  rewritten_eq : (rewrittenCalls registry roles body).encard = tally.rewritten
  calls_le : tally.rewritten + tally.unresolved.length ≤ tally.renamed
  /-- The body itself is kept if no reference in it was renamed, and only then. -/
  isKept_iff : edit.isKept = true ↔ tally.renamed = 0
  /-- Every value in the body is shared, but for the new values and what they stand in. -/
  sharedAt_iff : ∀ position part, body.at? position = some part →
    (SharedAt registry roles body position ↔ Untouched registry roles body position)
  at?_shared : ∀ position, SharedAt registry roles body position →
    (edit.apply body).at? position = body.at? position

/-- The tally of a renamed module function tells how many references were renamed and how many
calls were given a path, and the function shares with the one before what no change touches.
It is asked that no node has two fields of one name. -/
theorem renameModule_tells_changes {registry : Registry} {module : Value} {renamed : Renamed}
    (hfunction : module.isFunctionModule = true) (hdiffer : module.FieldsDiffer)
    (hrename : renameModule registry module = .ok renamed) :
    ∃ tag fields body params roles tally, module = .node tag fields ∧
      Fields.get? fields "body" = some body ∧ module.listAt "params" = .ok params ∧
      Roles.ofParams (params.map Part.value) = .ok roles ∧
      renamed.module.apply module =
        .node tag (Fields.set fields "body" (renamed.body.apply body)) ∧
      renamed.tally = some tally ∧ tally.Tells registry roles body renamed.body := by
  obtain ⟨-, tag, fields, body, rfl, hbody⟩ := Value.isFunctionModule_cases hfunction
  simp only [renameModule, hfunction, Value.lookup_node, hbody, Attempt.bind_eq_ok_iff,
    Attempt.pure_eq_ok_iff] at hrename
  obtain ⟨params, hparams, roles, hroles, ⟨edit, tally⟩, hedit, rfl⟩ := hrename
  have hinside : body.FieldsDiffer := hdiffer.child (.field "body") hbody
  have hrenames : body.RenamesTo registry roles (edit.apply body) := ⟨edit, tally, hedit, rfl⟩
  refine ⟨tag, fields, body, params, roles, tally, rfl, hbody, hparams, hroles, rfl, rfl, ?_⟩
  exact {
    changed := hrenames.changedAt
    renamed_eq := hinside.isCounted countedBy_renamedReferences roles edit tally hedit
    rewritten_eq := hinside.isCounted countedBy_rewrittenCalls roles edit tally hedit
    calls_le := (hinside.isAccountedFor roles edit tally hedit).calls_le
    isKept_iff := hinside.isKept_iff hedit
    sharedAt_iff := fun _ _ hat => hinside.sharedAt_iff hedit hat
    at?_shared := fun _ hshared => Value.at?_of_sharedAt hshared hrenames }

theorem renameModule_tells_changes_worded :
    ∃ registry renamed, (wordedModule "n" (Build.number 1) "module").isFunctionModule = true ∧
      (wordedModule "n" (Build.number 1) "module").FieldsDiffer ∧
      renameModule registry (wordedModule "n" (Build.number 1) "module") = .ok renamed ∧
      renamed.tally.map (fun tally => (tally.renamed, tally.rewritten, tally.unresolved.length)) =
        some (2, 1, 0) ∧
      ∃ tag fields body params roles tally,
        wordedModule "n" (Build.number 1) "module" = .node tag fields ∧
        Fields.get? fields "body" = some body ∧
        (wordedModule "n" (Build.number 1) "module").listAt "params" = .ok params ∧
        Roles.ofParams (params.map Part.value) = .ok roles ∧
        renamed.module.apply (wordedModule "n" (Build.number 1) "module") =
          .node tag (Fields.set fields "body" (renamed.body.apply body)) ∧
        renamed.tally = some tally ∧ tally.Tells registry roles body renamed.body := by
  have hresult : (renameModule { names := [(1, .text "Foo")] }
      (wordedModule "n" (Build.number 1) "module")).toOption.map
        (fun renamed => renamed.tally.map fun tally =>
          (tally.renamed, tally.rewritten, tally.unresolved.length)) =
      some (some (2, 1, 0)) := by
    decide +kernel
  obtain ⟨renamed, hrename, htally⟩ := Attempt.of_toOption_map hresult
  have hdiffer : (wordedModule "n" (Build.number 1) "module").FieldsDiffer :=
    (Value.orderly_of_isOrderly (by decide)).distinct
  exact ⟨_, renamed, by decide, hdiffer, hrename, htally,
    renameModule_tells_changes (by decide) hdiffer hrename⟩

end Debundle
