import Debundle.Proofs.Rename.Step

/-!
# Renaming by positions

The walk through a tree with the roles that are left, and the rule that looks at the
edges above a position, describe the same change.  The proof goes down a position step
by step: a child is renamed with the roles that hold inside its parent, and these are
the roles for which the rule finds no declaration at the parent.
-/

namespace Debundle

open Renaming

namespace Value

/-- Values of one outline have children at the same steps. -/
theorem child?_isSome_of_outline {left right : Value} (houtline : left.outline = right.outline)
    (step : Step) : (left.child? step).isSome = (right.child? step).isSome := by
  cases left with
  | array items =>
    cases right with
    | array others =>
      simp only [outline, Outline.array.injEq] at houtline
      cases step with
      | item index => rw [Bool.eq_iff_iff]; simp [child?, houtline]
      | field key => rfl
    | _ => simp [outline] at houtline
  | node tag fields =>
    cases right with
    | node other others =>
      simp only [outline, Outline.node.injEq] at houtline
      cases step with
      | item index => rfl
      | field key =>
        rw [Bool.eq_iff_iff, child?_node, child?_node, Fields.get?_isSome_iff,
          Fields.get?_isSome_iff, houtline.2]
    | _ => simp [outline] at houtline
  | _ => cases right <;> simp_all [outline, child?]

end Value

namespace Renaming

variable {registry : Registry} {roles : Roles} {root value : Value} {step : Step}
  {rest position : Position}

theorem RequiresAt.unique {left right : Value}
    (hleft : RequiresAt registry roles root position left)
    (hright : RequiresAt registry roles root position right) : left = right := by
  obtain ⟨call, -, hcall, ⟨-, -, literal, harguments, -, hresolve⟩, -⟩ := hleft
  obtain ⟨other, -, hother, ⟨-, -, literal', harguments', -, hresolve'⟩, -⟩ := hright
  cases hcall.symm.trans hother
  cases harguments.symm.trans harguments'
  cases hresolve.symm.trans hresolve'
  rfl

theorem RequiresAt.not_skipped {module : Value}
    (hrequires : RequiresAt registry roles root [] module) :
    Edge.isSkipped ⟨root, .field "arguments"⟩ = false := by
  obtain ⟨callee, hcall, -⟩ := requiresAt_nil_iff.1 hrequires
  simp [Edge.isSkipped, Value.skips, hcall.kind]

/-- The argument of a call of `require` is a literal. -/
theorem RequiresAt.arguments {module : Value}
    (hrequires : RequiresAt registry roles root position module) :
    ∃ literal, root.at? (position ++ [.field "arguments"]) = some (.array [literal]) ∧
      literal.kind = .literal := by
  obtain ⟨call, callee, hat, hcall, -⟩ := hrequires
  obtain ⟨literal, harguments, hliteral, -⟩ := hcall.argument
  have hkind := hcall.kind
  cases call with
  | node tag fields => exact ⟨literal, by simpa [Value.at?_append, hat] using harguments, hliteral⟩
  | _ => simp [Value.kind] at hkind

/-- There is a value wherever a change is made. -/
theorem Change.at?_isSome (hchange : Change registry roles root position value) :
    ∃ old, root.at? position = some old := by
  cases hchange with
  | reference hat => exact ⟨_, hat⟩
  | argument hrequires =>
    obtain ⟨literal, harguments, -⟩ := hrequires.arguments
    exact ⟨_, harguments⟩

theorem Change.not_isEmpty (hchange : Change registry roles root position value) :
    roles.isEmpty = false := by
  rw [← Bool.not_eq_true]
  intro hempty
  cases hchange with
  | reference _ _ _ _ hbound => simpa [Roles.role?_of_isEmpty hempty] using hbound.1
  | argument hrequires =>
    obtain ⟨call, callee, -, -, hbound⟩ := hrequires
    simpa [Roles.role?_of_isEmpty hempty] using hbound.1

/-- A change inside a value is its replaced argument, or lies where the value is
entered. -/
theorem Change.cons_cases (hchange : Change registry roles root (step :: rest) value) :
    (step = .field "arguments" ∧ rest = [] ∧ ∃ module,
      RequiresAt registry roles root [] module ∧ value = .array [requirePath module]) ∨
    Enters registry roles root step := by
  have hfirst : root.Crosses (step :: rest) [] ⟨root, step⟩ :=
    Value.crosses_cons_iff.2 (.inl ⟨rfl, rfl⟩)
  generalize hposition : step :: rest = position at hchange hfirst
  cases hchange with
  | reference _ _ _ hvisited _ => exact .inr (hvisited _ _ hfirst)
  | @argument position module hrequires hvisited =>
    cases position with
    | nil =>
      simp only [List.nil_append, List.cons.injEq] at hposition
      exact .inl ⟨hposition.1, hposition.2, module, hrequires, rfl⟩
    | cons first inside =>
      simp only [List.cons_append, List.cons.injEq] at hposition
      obtain ⟨rfl, -⟩ := hposition
      exact .inr (hvisited [] ⟨root, step⟩ (Value.crosses_cons_iff.2 (.inl ⟨rfl, rfl⟩)))

/-- Inside a reference that is renamed nothing else is changed. -/
theorem Change.nil_of_cons (hchange : Change registry roles root (step :: rest) value) :
    ∀ other, ¬ Change registry roles root [] other := by
  intro other hroot
  obtain ⟨tag, fields, name, role, rfl, hkind, -⟩ := change_nil_iff.1 hroot
  rcases hchange.cons_cases with ⟨-, -, module, hrequires, -⟩ | ⟨hskipped, -⟩
  · obtain ⟨callee, hcall, -⟩ := requiresAt_nil_iff.1 hrequires
    cases hkind.symm.trans hcall.kind
  · obtain ⟨old, hold⟩ := hchange.at?_isSome
    cases step with
    | item index => simp [Value.child?] at hold
    | field key =>
      simp [Edge.isSkipped, Value.skips, show (Value.node tag fields).kind = _ from hkind]
        at hskipped

end Renaming

namespace Value

variable {registry : Registry} {roles : Roles} {before after : Value}

/-- Every change of the rule is made. -/
theorem RenamesTo.at?_of_change (hrename : RenamesTo registry roles before after)
    {position : Position} {value : Value}
    (hchange : Change registry roles before position value) :
    after.at? position = some value := by
  induction position generalizing roles before after with
  | nil => rw [hrename.of_change_nil hchange, at?_nil]
  | cons step rest ih =>
    obtain ⟨old, hold⟩ := hchange.at?_isSome
    obtain ⟨child, hchild, -⟩ := Option.bind_eq_some_iff.1 hold
    rcases hrename.child hchange.nil_of_cons hchild with
      ⟨inner, renamed, hinner, henters, hrenamed, hrename'⟩ |
        ⟨module, rfl, hrequires, hrenamed⟩ | ⟨hidle, -⟩
    · rw [at?_cons, hrenamed, Option.bind_some]
      rcases (change_cons_iff hchild hinner).1 hchange with
        ⟨rfl, -, module, hrequires, -⟩ | ⟨-, hinside⟩
      · exact absurd ⟨rfl, module, hrequires⟩ henters.2
      · exact ih hrename' hinside
    · rcases hchange.cons_cases with ⟨-, rfl, other, hother, rfl⟩ | ⟨-, hnot⟩
      · rw [at?_cons, hrenamed, hrequires.unique hother]
        rfl
      · exact absurd ⟨rfl, module, hrequires⟩ hnot
    · rcases hidle with hempty | hskipped
      · simp [hchange.not_isEmpty] at hempty
      · rcases hchange.cons_cases with ⟨rfl, -, module, hrequires, -⟩ | ⟨hentered, -⟩
        · simp [hrequires.not_skipped] at hskipped
        · simp [hentered] at hskipped

theorem RenamesTo.child?_eq_none {step : Step} (hrename : RenamesTo registry roles before after)
    (hroot : ∀ value, ¬ Change registry roles before [] value)
    (hchild : before.child? step = none) : after.child? step = none := by
  have hsome := child?_isSome_of_outline (hrename.outline_eq hroot) step
  rwa [hchild, Option.isSome_none, Option.isSome_eq_false_iff, Option.isNone_iff_eq_none] at hsome

/-- At a position that no change touches, the value before is renamed to the value
after, with some of the roles; or there is no value on either side. -/
theorem RenamesTo.at? (hrename : RenamesTo registry roles before after)
    {position : Position}
    (hnone : ∀ above value, above <+: position → ¬ Change registry roles before above value) :
    (before.at? position = none ∧ after.at? position = none) ∨
      ∃ inner old new, before.at? position = some old ∧ after.at? position = some new ∧
        RenamesTo registry inner old new ∧ ∀ value, ¬ Change registry inner old [] value := by
  induction position generalizing roles before after with
  | nil => exact .inr ⟨roles, before, after, rfl, rfl, hrename,
      fun value => hnone [] value List.nil_prefix⟩
  | cons step rest ih =>
    have hroot : ∀ value, ¬ Change registry roles before [] value :=
      fun value => hnone [] value List.nil_prefix
    rw [at?_cons, at?_cons]
    cases hchild : before.child? step with
    | none =>
      rw [hrename.child?_eq_none hroot hchild]
      exact .inl ⟨rfl, rfl⟩
    | some child =>
      rcases hrename.child hroot hchild with
        ⟨inner, renamed, hinner, henters, hrenamed, hrename'⟩ |
          ⟨module, rfl, hrequires, -⟩ | ⟨-, hrenamed⟩
      · rw [hrenamed]
        refine ih hrename' fun above value hprefix hchange => ?_
        refine hnone (step :: above) value (List.cons_prefix_cons.2 ⟨rfl, hprefix⟩) ?_
        exact (change_cons_iff hchild hinner).2 (.inr ⟨henters, hchange⟩)
      · refine absurd ?_ (hnone [.field "arguments"] (.array [requirePath module])
          (List.cons_prefix_cons.2 ⟨rfl, List.nil_prefix⟩))
        exact .argument hrequires visited_nil
      · -- The child stays, which is what a renaming without roles would do to it.
        rw [hrenamed]
        have hempty : ({} : Roles).isEmpty = true := rfl
        refine ih (renamesTo_self hempty child) fun above value _ hchange => ?_
        simpa [hempty] using hchange.not_isEmpty

/-- A renaming changes a tree at exactly the positions of the rule. -/
theorem RenamesTo.changedAt (hrename : RenamesTo registry roles before after) :
    ChangedAt (Change registry roles before) before after where
  changed := fun _ _ hchange => hrename.at?_of_change hchange
  unchanged := fun _ hnone => by
    rcases hrename.at? hnone with ⟨hold, hnew⟩ | ⟨inner, old, new, hold, hnew, hrename', hroot⟩
    · rw [hold, hnew]
    · rw [hold, hnew, Option.map_some, Option.map_some, hrename'.outline_eq hroot]

end Value

end Debundle
