import Debundle.Proofs.Rename.Sharing
import Debundle.Proofs.Rename.Totality
import Debundle.Proofs.Tree.Preorder

/-!
# Passing over values without roles

A renaming looks at nothing inside a value once no roles are left there.  Here it is compared
with a renaming that goes on everywhere: whenever that one returns, both make the same of the
tree, share the same values with the tree before and count the same.  The two may come apart in
the middle of a tree, at every array, function or catch clause that takes the last role away.
-/

namespace Debundle

open Attempt Renaming

theorem Roles.isEmpty_without {roles inner : Roles} {names : List Value}
    (hempty : roles.isEmpty = true) (hinner : roles.without names = .ok inner) :
    inner.isEmpty = true := by
  simp only [without, bind_eq_ok_iff, pure_eq_ok_iff] at hinner
  obtain ⟨keys, -, rfl⟩ := hinner
  rw [isEmpty, List.isEmpty_iff] at hempty ⊢
  rw [hempty, List.filter_nil]

/-- Carries a plan out at a node, where `inside` goes on in the fields. -/
def Plan.carryOut (tag : String) (fields : Fields)
    (inside : Roles → (String → Bool) → Option Value → Except Fault (Edit Fields × Tally)) :
    Plan → Except Fault (Edit Value × Tally)
  | .keep => .ok (.kept, {})
  | .refer role =>
    .ok (.changed (.node tag (Fields.set fields "name" (.text role.word))), { renamed := 1 })
  | .enter roles enters arguments own => do
    let result ← inside roles enters arguments
    return (result.1.map (.node tag), own ++ result.2)

/-- What is made of the value of a field, if `visited` is what is made of it where it is
entered. -/
def Plan.atField (enters : String → Bool) (arguments : Option Value) (key : String)
    (visited : Except Fault (Edit Value × Tally)) : Except Fault (Edit Value × Tally) :=
  (arguments.filter fun _ => key == "arguments").elim
    (if enters key then visited else .ok (.kept, {})) fun replaced => .ok (.changed replaced, {})

namespace Plan

/-- The plan keeps the node, or goes on inside with no roles and nothing to replace or count. -/
inductive IsIdle : Plan → Prop where
  | keep : IsIdle .keep
  | enter {inner : Roles} (enters : String → Bool) : inner.isEmpty = true →
      IsIdle (.enter inner enters none {})

variable {registry : Registry} {roles inner : Roles} {node : Value} {plan : Plan}

theorem isIdle_ofCall (hempty : roles.isEmpty = true)
    (hplan : ofCall registry roles node = .ok plan) : plan.IsIdle := by
  simp only [ofCall, bind_eq_ok_iff] at hplan
  obtain ⟨argument?, hargument, hplan⟩ := hplan
  cases argument? with
  | none =>
    cases hplan
    exact .enter _ hempty
  | some id =>
    obtain ⟨_, name, _, -, -, -, hrole, -⟩ := requireArgument?_eq_some hargument
    cases (Roles.role?_of_isEmpty hempty name).symm.trans hrole

theorem isIdle_ofKeyed (hempty : roles.isEmpty = true) (property : Value) :
    (ofKeyed roles property).IsIdle := by
  simp only [ofKeyed]
  split
  · exact .enter _ hempty
  · split <;> exact .enter _ hempty

/-- Without roles there is nothing to do at a node but to look inside. -/
theorem isIdle_of_isEmpty (hempty : roles.isEmpty = true)
    (hplan : ofNode registry roles node = .ok plan) : plan.IsIdle := by
  simp only [ofNode] at hplan
  split at hplan
  case h_1 =>
    split at hplan
    · rw [Roles.role?_of_isEmpty hempty] at hplan
      cases hplan
      exact .keep
    · cases hplan
      exact .keep
  case h_2 => exact isIdle_ofCall hempty hplan
  case h_3 | h_4 | h_5 | h_6 =>
    simp only [bind_eq_ok_iff, pure_eq_ok_iff] at hplan
    obtain ⟨names, -, inner, hinner, rfl⟩ := hplan
    exact .enter _ (Roles.isEmpty_without hempty hinner)
  case h_7 =>
    split at hplan
    all_goals
      cases hplan
      exact .enter _ hempty
  case h_8 | h_9 =>
    cases hplan
    exact isIdle_ofKeyed hempty node
  case h_13 =>
    cases hplan
    exact .keep
  all_goals
    cases hplan
    exact .enter _ hempty

theorem carryOut_of_imp {tag : String} {fields : Fields}
    {first second : Roles → (String → Bool) → Option Value → Except Fault (Edit Fields × Tally)}
    {outcome : Edit Value × Tally}
    (himp : ∀ inner enters arguments result, first inner enters arguments = .ok result →
      second inner enters arguments = .ok result)
    (hcarried : plan.carryOut tag fields first = .ok outcome) :
    plan.carryOut tag fields second = .ok outcome := by
  cases plan with
  | keep => exact hcarried
  | refer role => exact hcarried
  | enter inner enters arguments own =>
    rw [carryOut, bind_eq_ok_iff] at hcarried ⊢
    obtain ⟨result, hresult, heq⟩ := hcarried
    exact ⟨result, himp inner enters arguments result hresult, heq⟩

end Plan

namespace Value

/-- The renaming that passes over values where `idle` holds of the roles that are left. -/
def renameUnless (idle : Roles → Bool) (registry : Registry) (roles : Roles) :
    Value → Except Fault (Edit Value × Tally)
  | .array items =>
    if idle roles then .ok (.kept, {})
    else do
      let inner ← roles.without (← hoistedNames (.array items))
      let result ← unlessItems idle registry inner items
      return (result.1.map .array, result.2)
  | .node tag fields =>
    if idle roles then .ok (.kept, {})
    else do
      (← Plan.ofNode registry roles (.node tag fields)).carryOut tag fields
        fun inner enters arguments => unlessFields idle registry inner enters arguments fields
  | _ => .ok (.kept, {})
where
  unlessItems (idle : Roles → Bool) (registry : Registry) (roles : Roles) :
      List Value → Except Fault (Edit (List Value) × Tally)
    | [] => .ok (.kept, {})
    | item :: rest => do
      let head ← item.renameUnless idle registry roles
      let tail ← unlessItems idle registry roles rest
      return (head.1.cons tail.1 item rest, head.2 ++ tail.2)
  unlessFields (idle : Roles → Bool) (registry : Registry) (roles : Roles)
      (enters : String → Bool) (arguments : Option Value) :
      List (String × Value) → Except Fault (Edit Fields × Tally)
    | [] => .ok (.kept, {})
    | (key, value) :: rest => do
      let head ← Plan.atField enters arguments key (value.renameUnless idle registry roles)
      let tail ← unlessFields idle registry roles enters arguments rest
      return (← head.1.consField tail.1 key value rest, head.2 ++ tail.2)

/-- The renaming that goes on where no roles are left. -/
def renameThroughout (registry : Registry) (roles : Roles) (value : Value) :
    Except Fault (Edit Value × Tally) :=
  value.renameUnless (fun _ => false) registry roles

variable {registry : Registry} {roles inner : Roles} {idle : Roles → Bool}
  {enters : String → Bool} {arguments : Option Value} {items : List Value} {fields : Fields}

theorem renameField_eq_atField (key : String) (value : Value) :
    renameField registry roles enters arguments key value =
      Plan.atField enters arguments key (value.rename registry roles) := by
  rw [renameField, Plan.atField]
  cases arguments.filter fun _ => key == "arguments" with
  | some replaced => rfl
  | none => rfl

theorem rename_node_eq_carryOut (tag : String) (fields : Fields) :
    (Value.node tag fields).rename registry roles =
      if roles.isEmpty then .ok (.kept, {})
      else Plan.ofNode registry roles (.node tag fields) >>=
        Plan.carryOut tag fields fun inner enters arguments =>
          rename.renameFields registry inner enters arguments fields := by
  rw [rename]
  cases Plan.ofNode registry roles (.node tag fields) with
  | error fault => rfl
  | ok plan => cases plan <;> rfl

theorem renameItems_eq_unlessItems
    (hitems : ∀ item ∈ items, item.rename registry roles = item.renameUnless idle registry roles) :
    rename.renameItems registry roles items =
      renameUnless.unlessItems idle registry roles items := by
  induction items with
  | nil => rfl
  | cons item rest ih =>
    have hrest := ih fun other hother => hitems other (List.mem_cons_of_mem item hother)
    rw [rename.renameItems, renameUnless.unlessItems, hitems item List.mem_cons_self, hrest]

theorem renameFields_eq_unlessFields (hfields : ∀ value ∈ fields.map Prod.snd,
      value.rename registry roles = value.renameUnless idle registry roles) :
    rename.renameFields registry roles enters arguments fields =
      renameUnless.unlessFields idle registry roles enters arguments fields := by
  induction fields with
  | nil => rfl
  | cons entry rest ih =>
    obtain ⟨key, value⟩ := entry
    have hrest := ih fun other hother => hfields other (List.mem_cons_of_mem value hother)
    rw [renameFields_cons, renameUnless.unlessFields, renameField_eq_atField,
      hfields value List.mem_cons_self, hrest]

/-- A renaming passes over the values where no roles are left, and over nothing else. -/
theorem rename_eq_renameUnless (value : Value) (roles : Roles) :
    value.rename registry roles = value.renameUnless Roles.isEmpty registry roles := by
  induction value using induction_on_held generalizing roles with
  | hstep value ih =>
    cases value with
    | array items =>
      have hitems : ∀ inner, rename.renameItems registry inner items =
          renameUnless.unlessItems Roles.isEmpty registry inner items :=
        fun inner => renameItems_eq_unlessItems fun item hitem => ih item hitem inner
      rw [rename, renameUnless]
      simp only [hitems]
    | node tag fields =>
      have hfields : ∀ inner enters arguments,
          rename.renameFields registry inner enters arguments fields =
            renameUnless.unlessFields Roles.isEmpty registry inner enters arguments fields :=
        fun inner enters arguments =>
          renameFields_eq_unlessFields fun child hchild => ih child hchild inner
      rw [rename_node_eq_carryOut, renameUnless]
      simp only [hfields]
    | _ => rfl

variable {result : Edit (List Value) × Tally} {key : String} {outcome : Edit Value × Tally}

theorem renameItems_of_unlessItems
    (hitems : ∀ item ∈ items, ∀ outcome, item.renameUnless idle registry roles = .ok outcome →
      item.rename registry roles = .ok outcome)
    (hresult : renameUnless.unlessItems idle registry roles items = .ok result) :
    rename.renameItems registry roles items = .ok result := by
  induction items generalizing result with
  | nil => exact hresult
  | cons item rest ih =>
    simp only [renameUnless.unlessItems, bind_eq_ok_iff] at hresult
    obtain ⟨head, hhead, tail, htail, hresult⟩ := hresult
    have hrest := ih (fun other hother => hitems other (List.mem_cons_of_mem item hother)) htail
    rw [rename.renameItems, hitems item List.mem_cons_self head hhead, hrest]
    exact hresult

theorem atField_of_enters {visited : Except Fault (Edit Value × Tally)}
    (hnone : (arguments.filter fun _ => key == "arguments") = none) (henters : enters key = true) :
    Plan.atField enters arguments key visited = visited := by
  rw [Plan.atField, hnone, henters]
  rfl

theorem atField_of_imp {first second : Except Fault (Edit Value × Tally)}
    {result : Edit Value × Tally} (himp : ∀ outcome, first = .ok outcome → second = .ok outcome)
    (hresult : Plan.atField enters arguments key first = .ok result) :
    Plan.atField enters arguments key second = .ok result := by
  cases hreplaced : arguments.filter fun _ => key == "arguments" with
  | some replaced =>
    rw [Plan.atField, hreplaced] at hresult ⊢
    exact hresult
  | none =>
    cases henters : enters key with
    | true =>
      rw [atField_of_enters hreplaced henters] at hresult ⊢
      exact himp result hresult
    | false =>
      rw [Plan.atField, hreplaced, henters] at hresult ⊢
      exact hresult

theorem renameFields_of_unlessFields {result : Edit Fields × Tally}
    (hfields : ∀ value ∈ fields.map Prod.snd, ∀ outcome,
      value.renameUnless idle registry roles = .ok outcome →
        value.rename registry roles = .ok outcome)
    (hresult :
      renameUnless.unlessFields idle registry roles enters arguments fields = .ok result) :
    rename.renameFields registry roles enters arguments fields = .ok result := by
  induction fields generalizing result with
  | nil => exact hresult
  | cons entry rest ih =>
    obtain ⟨key, value⟩ := entry
    simp only [renameUnless.unlessFields, bind_eq_ok_iff] at hresult
    obtain ⟨head, hhead, tail, htail, hresult⟩ := hresult
    have hrest := ih (fun other hother => hfields other (List.mem_cons_of_mem value hother)) htail
    have hvalue := atField_of_imp (hfields value List.mem_cons_self) hhead
    rw [renameFields_cons, renameField_eq_atField, hvalue, hrest, ok_bind, ok_bind]
    exact bind_eq_ok_iff.2 hresult

theorem renameThroughout_node (tag : String) (fields : Fields) :
    (Value.node tag fields).renameThroughout registry roles =
      Plan.ofNode registry roles (.node tag fields) >>=
        Plan.carryOut tag fields fun inner enters arguments =>
          renameUnless.unlessFields (fun _ => false) registry inner enters arguments fields :=
  rfl

theorem renameThroughout_array_eq_ok
    (hthroughout : (Value.array items).renameThroughout registry roles = .ok outcome) :
    ∃ names inner result, hoistedNames (.array items) = .ok names ∧
      roles.without names = .ok inner ∧
      renameUnless.unlessItems (fun _ => false) registry inner items = .ok result ∧
      (result.1.map .array, result.2) = outcome := by
  rw [renameThroughout, renameUnless, if_neg Bool.false_ne_true] at hthroughout
  simp only [bind_eq_ok_iff, pure_eq_ok_iff] at hthroughout
  obtain ⟨names, hnames, inner, hinner, result, hresult, heq⟩ := hthroughout
  exact ⟨names, inner, result, hnames, hinner, hresult, heq⟩

theorem carryOut_of_isIdle {plan : Plan} (hidle : plan.IsIdle) (tag : String) :
    (plan.carryOut tag fields fun inner enters arguments =>
      rename.renameFields registry inner enters arguments fields) = .ok (.kept, {}) := by
  cases hidle with
  | keep => rfl
  | enter enters hinside =>
    rw [Plan.carryOut, renameFields_of_kept fun entry _ => rename_of_isEmpty hinside entry.2]
    rfl

/-- Where the renaming that goes on everywhere returns, the renaming returns the same. -/
theorem rename_of_renameThroughout (value : Value)
    (hthroughout : value.renameThroughout registry roles = .ok outcome) :
    value.rename registry roles = .ok outcome := by
  induction value using induction_on_held generalizing roles outcome with
  | hstep value ih =>
    cases value with
    | array items =>
      obtain ⟨names, inner, result, hnames, hinner, hitems, rfl⟩ :=
        renameThroughout_array_eq_ok hthroughout
      have hrenamed : rename.renameItems registry inner items = .ok result :=
        renameItems_of_unlessItems (fun item hitem _ houtcome => ih item hitem houtcome) hitems
      cases hempty : roles.isEmpty with
      | false =>
        rw [rename_array hempty, hnames, ok_bind, hinner, ok_bind, hrenamed]
        rfl
      | true =>
        -- Here the two come apart: only one of them visits the items.
        have hinside := Roles.isEmpty_without hempty hinner
        cases hrenamed.symm.trans (renameItems_of_kept fun item _ => rename_of_isEmpty hinside item)
        exact rename_of_isEmpty hempty _
    | node tag fields =>
      rw [renameThroughout_node, bind_eq_ok_iff] at hthroughout
      obtain ⟨plan, hplan, hcarried⟩ := hthroughout
      have hrenamed := Plan.carryOut_of_imp (fun inner enters arguments result hresult =>
        renameFields_of_unlessFields (fun child hchild _ houtcome => ih child hchild houtcome)
          hresult) hcarried
      cases hempty : roles.isEmpty with
      | false =>
        rw [rename_node_eq_carryOut, hempty, hplan]
        exact hrenamed
      | true =>
        have hidle := Plan.isIdle_of_isEmpty hempty hplan
        rw [rename_of_isEmpty hempty, ← hrenamed, carryOut_of_isIdle hidle]
    | _ => exact hthroughout

theorem exists_of_unlessItems {item : Value}
    (hresult : renameUnless.unlessItems idle registry roles items = .ok result)
    (hitem : item ∈ items) : ∃ outcome, item.renameUnless idle registry roles = .ok outcome := by
  induction items generalizing result with
  | nil => cases hitem
  | cons first rest ih =>
    simp only [renameUnless.unlessItems, bind_eq_ok_iff] at hresult
    obtain ⟨head, hhead, tail, htail, -⟩ := hresult
    rcases List.mem_cons.1 hitem with rfl | hrest
    · exact ⟨head, hhead⟩
    · exact ih htail hrest

theorem exists_of_unlessFields {result : Edit Fields × Tally} {child : Value}
    (hresult : renameUnless.unlessFields idle registry roles enters arguments fields = .ok result)
    (hchild : Fields.get? fields key = some child)
    (hnone : (arguments.filter fun _ => key == "arguments") = none) (henters : enters key = true) :
    ∃ outcome, child.renameUnless idle registry roles = .ok outcome := by
  induction fields generalizing result with
  | nil => cases hchild
  | cons entry rest ih =>
    obtain ⟨name, value⟩ := entry
    simp only [renameUnless.unlessFields, bind_eq_ok_iff] at hresult
    obtain ⟨head, hhead, tail, htail, -⟩ := hresult
    rw [Fields.get?, List.lookup_cons] at hchild
    cases hname : key == name with
    | true =>
      rw [hname] at hchild
      cases hchild
      rw [← eq_of_beq hname, atField_of_enters hnone henters] at hhead
      exact ⟨head, hhead⟩
    | false =>
      rw [hname] at hchild
      exact ih htail hchild

end Value

namespace Renaming

/-- The tree after the renaming that goes on everywhere holds the very value of the tree before
at the position. -/
abbrev SharedThroughout (registry : Registry) : Roles → Value → Position → Prop :=
  SharedBy registry fun roles value => value.renameThroughout registry roles

variable {registry : Registry} {roles : Roles} {value : Value} {position : Position}

theorem SharedThroughout.sharedAt (hshared : SharedThroughout registry roles value position) :
    SharedAt registry roles value position := by
  induction hshared with
  | kept hkept => exact SharedBy.kept (Value.rename_of_renameThroughout _ hkept)
  | refer hplan hkey => exact SharedBy.refer hplan hkey
  | item hnames hinner hitem _ ih => exact SharedBy.item hnames hinner hitem ih
  | skipped hplan hnone hskipped hheld => exact SharedBy.skipped hplan hnone hskipped hheld
  | field hplan hnone henters hheld _ ih => exact SharedBy.field hplan hnone henters hheld ih

/-- What a renaming shares is shared by one that goes on everywhere, if that one returns. -/
theorem SharedAt.sharedThroughout (hshared : SharedAt registry roles value position)
    {outcome : Edit Value × Tally}
    (hthroughout : value.renameThroughout registry roles = .ok outcome) :
    SharedThroughout registry roles value position := by
  induction hshared generalizing outcome with
  | kept hkept =>
    have hrename := Value.rename_of_renameThroughout _ hthroughout
    cases hkept.symm.trans hrename
    exact SharedBy.kept hthroughout
  | refer hplan hkey => exact SharedBy.refer hplan hkey
  | item hnames hinner hitem _ ih =>
    obtain ⟨_, _, result, hothers, hwithin, hitems, -⟩ :=
      Value.renameThroughout_array_eq_ok hthroughout
    cases hnames.symm.trans hothers
    cases hinner.symm.trans hwithin
    obtain ⟨_, hvisited⟩ := Value.exists_of_unlessItems hitems (List.mem_of_getElem? hitem)
    exact SharedBy.item hnames hinner hitem (ih hvisited)
  | skipped hplan hnone hskipped hheld => exact SharedBy.skipped hplan hnone hskipped hheld
  | field hplan hnone henters hheld _ ih =>
    rw [Value.renameThroughout_node, hplan, ok_bind] at hthroughout
    obtain ⟨result, hfields, -⟩ := bind_eq_ok_iff.1 hthroughout
    obtain ⟨_, hvisited⟩ := Value.exists_of_unlessFields hfields hheld hnone henters
    exact SharedBy.field hplan hnone henters hheld (ih hvisited)

end Renaming

/-- A renaming may pass over the values where no roles are left.  Whenever the renaming that goes
on there returns, both return the same edit and the same tally, and they share the same values
with the tree before.  Where shadowing has taken the last role away, neither changes or counts
anything. -/
theorem rename_passes_over_soundly (registry : Registry) (roles : Roles) (value : Value) :
    value.rename registry roles = value.renameUnless Roles.isEmpty registry roles ∧
      (∀ edit tally, value.renameThroughout registry roles = .ok (edit, tally) →
        value.rename registry roles = .ok (edit, tally) ∧
          ∀ position, SharedAt registry roles value position ↔
            SharedThroughout registry roles value position) ∧
      ∀ names inner, roles.without names = .ok inner → inner.isEmpty = true →
        value.rename registry inner = .ok (.kept, {}) ∧
          ∀ edit tally, value.renameThroughout registry inner = .ok (edit, tally) →
            edit = .kept ∧ tally = {} := by
  refine ⟨Value.rename_eq_renameUnless value roles, fun edit tally hthroughout => ?_,
    fun names inner _ hempty => ?_⟩
  · exact ⟨Value.rename_of_renameThroughout value hthroughout, fun position =>
      ⟨fun hshared => hshared.sharedThroughout hthroughout, fun hshared => hshared.sharedAt⟩⟩
  · have hkept : value.rename registry inner = .ok (.kept, {}) :=
      Value.rename_of_isEmpty hempty value
    refine ⟨hkept, fun edit tally hthroughout => ?_⟩
    have hrename := Value.rename_of_renameThroughout value hthroughout
    cases hkept.symm.trans hrename
    exact ⟨rfl, rfl⟩

/-- The statements `n(1); (function (n) { n(2); });`. -/
def shadowingStatements : List Value :=
  [Build.perform (Build.call (Build.name "n") [Build.number 1]),
    Build.perform (Build.function [Build.name "n"]
      [Build.perform (Build.call (Build.name "n") [Build.number 2])])]

theorem rename_passes_over_soundly_shadowed :
    ∃ edit tally,
      (Value.array shadowingStatements).renameThroughout { names := [(1, .text "Foo")] }
        ⟨[(.text "n", .require)]⟩ = .ok (edit, tally) ∧
      (Value.array shadowingStatements).rename { names := [(1, .text "Foo")] }
        ⟨[(.text "n", .require)]⟩ = .ok (edit, tally) ∧
      (tally.renamed, tally.rewritten, tally.unresolved.length) = (1, 1, 0) ∧
      (Value.array shadowingStatements).rename { names := [(1, .text "Foo")] } ⟨[]⟩ =
        .ok (.kept, {}) := by
  obtain ⟨-, hsame, hnone⟩ := rename_passes_over_soundly { names := [(1, .text "Foo")] }
    ⟨[(.text "n", .require)]⟩ (.array shadowingStatements)
  have hcounts : ((Value.array shadowingStatements).renameThroughout
      { names := [(1, .text "Foo")] } ⟨[(.text "n", .require)]⟩).toOption.map
        (fun result => (result.2.renamed, result.2.rewritten, result.2.unresolved.length)) =
      some (1, 1, 0) := by decide +kernel
  cases hthroughout : (Value.array shadowingStatements).renameThroughout
      { names := [(1, .text "Foo")] } ⟨[(.text "n", .require)]⟩ with
  | error fault =>
    rw [hthroughout] at hcounts
    cases hcounts
  | ok outcome =>
    rw [hthroughout] at hcounts
    obtain ⟨edit, tally⟩ := outcome
    exact ⟨edit, tally, rfl, (hsame edit tally hthroughout).1, Option.some.inj hcounts,
      (hnone [.text "n"] ⟨[]⟩ rfl rfl).1⟩

end Debundle
