import Debundle.Proofs.Rename.ModuleFunction

/-!
# Shadowing

A reference that a scope inside the module function binds is left alone, and so is the
argument of a call whose callee is such a reference.  On the way from the module function
to the reference there is always a place where the renaming takes the role from the name:
the parameters that bind it, or the statements of the function that declares it.
-/

namespace Debundle

open Renaming

namespace Value

variable {registry : Registry} {roles : Roles} {before after literal : Value} {slot : Slot}
  {position : Position} {name : String}

theorem RenamesTo.eq_of_identifier (hrename : RenamesTo registry roles before after)
    (hkind : before.kind = .identifier)
    (hroot : ∀ value, ¬ Change registry roles before [] value) : after = before := by
  cases hrename.renameStep with
  | idle => rfl
  | leaf => rfl
  | keep => rfl
  | refer hidentifier hname hrole =>
    exact absurd (change_nil_of_role hidentifier hname hrole) (hroot _)
  | items => cases hkind
  | fields hinside => exact absurd hkind hinside.kind

/-- A name that is not changed itself stays, for nothing around it is changed. -/
theorem RenamesTo.names_of_not_change (hrename : RenamesTo registry roles before after)
    (hfills : before.fills slot = true) (hname : before.Names position name)
    (hnot : ∀ value, ¬ Change registry roles before position value) :
    after.Names position name := by
  obtain ⟨node, hat, hkind, htext⟩ := hname
  have hnone : ∀ above value, above <+: position → ¬ Change registry roles before above value := by
    intro above value habove hchange
    rcases hchange.above_node hfills hat (by simp [hkind]) habove with
      rfl | ⟨call, index, module, hliteral, -⟩
    · exact hnot value hchange
    · cases hkind.symm.trans hliteral
  rcases hrename.at? hnone with ⟨hold, -⟩ | ⟨inner, old, new, hold, hnew, hrename', hroot⟩
  · cases hat.symm.trans hold
  · cases hat.symm.trans hold
    exact ⟨node, by rw [hnew, hrename'.eq_of_identifier hkind hroot], hkind, htext⟩

/-- A literal stays where it is, unless it is the argument of a call of `require`. -/
theorem RenamesTo.literal_of_not_requires (hrename : RenamesTo registry roles before after)
    (hfills : before.fills slot = true) {call : Position} {index : Nat}
    (hat : before.at? (call ++ [.field "arguments", .item index]) = some literal)
    (hkind : literal.kind = .literal)
    (hnot : ∀ module, ¬ RequiresAt registry roles before call module) :
    after.at? (call ++ [.field "arguments", .item index]) = some literal := by
  have hnone : ∀ above value, above <+: call ++ [.field "arguments", .item index] →
      ¬ Change registry roles before above value := by
    intro above value habove hchange
    rcases hchange.above_node hfills hat (by simp [hkind]) habove with
      heq | ⟨other, place, module, -, heq, hrequires⟩
    · cases hchange with
      | reference hreference hidentifier =>
        rw [heq, hat] at hreference
        cases hreference
        cases hkind.symm.trans hidentifier
      | argument => simpa using congrArg List.getLast? heq
    · obtain ⟨rfl, -⟩ := List.append_inj' heq rfl
      exact hnot module hrequires
  rcases hrename.at? hnone with ⟨hold, -⟩ | ⟨inner, old, new, hold, hnew, hrename', hroot⟩
  · cases hat.symm.trans hold
  · cases hat.symm.trans hold
    obtain ⟨held, hheld⟩ := fills_at? hfills hat
    rw [hnew, hrename'.eq_of_literal hheld hkind]

/-- The last edge of a way stands at its end. -/
theorem crosses_concat {root parent : Value} {step : Step} {above : Position} {edge : Edge}
    (hat : root.at? position = some parent)
    (hcross : root.Crosses (position ++ [step]) above edge) :
    root.Crosses position above edge ∨ edge = ⟨parent, step⟩ := by
  obtain ⟨hedge, below, heq⟩ := hcross
  rcases List.eq_nil_or_concat' below with rfl | ⟨front, last, rfl⟩
  · obtain ⟨rfl, hstep⟩ := List.append_inj' heq rfl
    cases hat.symm.trans hedge
    simp only [List.cons.injEq, and_true] at hstep
    exact .inr (by rw [hstep])
  · rw [← List.cons_append, ← List.append_assoc] at heq
    obtain ⟨rfl, -⟩ := List.append_inj' heq rfl
    exact .inl ⟨hedge, front, rfl⟩

/-- A reference to what an inner scope binds is not changed. -/
theorem not_change_of_binds {body : Value}
    (hfills : body.fills (.one (.blockStatement :: Kind.expressions)) = true)
    (hname : body.Names position name)
    (hbinds : body.BindsFor position name) (value : Value) :
    ¬ Change registry roles body position value := by
  intro hchange
  obtain ⟨above, edge, hcross, hdrops⟩ := exists_drops_of_binds hfills hname hbinds
  obtain ⟨-, tag, fields, role, -, hbound, -⟩ := hchange.of_names hname
  exact hbound.2 above edge hcross hdrops

/-- A call whose callee an inner scope binds is no call of `require`. -/
theorem not_requiresAt_of_binds {body : Value} {call : Position}
    (hfills : body.fills (.one (.blockStatement :: Kind.expressions)) = true)
    (hname : body.Names (call ++ [.field "callee"]) name)
    (hbinds : body.BindsFor (call ++ [.field "callee"]) name) (module : Value) :
    ¬ RequiresAt registry roles body call module := by
  rintro ⟨node, callee, hnode, hcall, hbound⟩
  obtain ⟨above, edge, hcross, hdrops⟩ := exists_drops_of_binds hfills hname hbinds
  have hcallee : callee = name := by
    obtain ⟨held, hheld, -, htext⟩ := hcall.callee
    obtain ⟨other, hother, -, hname⟩ := hname
    rw [at?_append, hnode, Option.bind_some, at?_cons, Option.bind_eq_some_iff] at hother
    obtain ⟨child, hchild, hother⟩ := hother
    cases hother
    cases hheld.symm.trans (lookup_eq_child? hchild)
    cases htext.symm.trans hname
    rfl
  rcases crosses_concat hnode hcross with hcross | rfl
  · exact hbound.2 above edge hcross (hcallee ▸ hdrops)
  · -- A call is no scope.
    obtain ⟨inner, hinner⟩ := fills_at? hfills hnode
    have hkind := hcall.kind
    rcases (drops_iff hinner).1 hdrops with hparam | ⟨harray, -⟩
    · simp [bindsParam, hkind, Kind.paramField?] at hparam
    · cases node <;> simp [kind, isArray] at hkind harray

end Value

/-- References to what a scope inside a module function binds are not renamed, and calls of
such references get no path for an argument. -/
theorem renameModule_respects_shadowing {registry : Registry} {module : Value}
    {renamed : Renamed} {position : Position} {name : String}
    (hmodule : module.IsModuleFunction) (hrename : renameModule registry module = .ok renamed)
    (hreference : module.RefersAt position name)
    (hinner : (module.home position name).isSome = true) :
    (renamed.module.apply module).Names position name ∧
      ∀ call index literal, position = call ++ [.field "callee"] →
        module.at? (call ++ [.field "arguments", .item index]) = some literal →
        literal.kind = .literal →
        (renamed.module.apply module).at? (call ++ [.field "arguments", .item index]) =
          some literal := by
  obtain ⟨tag, fields, body, params, hparts⟩ := hmodule.exists_parts
  obtain ⟨roles, processed, -, happly, hbody⟩ := hparts.renameModule_eq_ok hrename
  have hcases := hparts.refersAt_cases hreference
  obtain rfl := hparts.node_eq
  rw [happly]
  rcases hcases with ⟨rest, rfl, hname, -⟩ | ⟨rest, rfl⟩
  · have hbinds := hparts.home_isSome_iff.1 hinner
    constructor
    · obtain ⟨node, hat, hnode⟩ := hbody.names_of_not_change hparts.body_fills hname
        (Value.not_change_of_binds hparts.body_fills hname hbinds)
      exact ⟨node, by rw [Value.at?_set_body, hat], hnode⟩
    · intro call index literal hcall hat hkind
      cases call with
      | nil => simp at hcall
      | cons step call =>
        simp only [List.cons_append, List.cons.injEq] at hcall hat ⊢
        obtain ⟨rfl, rfl⟩ := hcall
        rw [Value.at?_set_body]
        refine hbody.literal_of_not_requires hparts.body_fills ?_ hkind
          (Value.not_requiresAt_of_binds hparts.body_fills hname hbinds)
        simpa [hparts.body_eq] using hat
  · -- The parameters of a module function are not looked at.
    constructor
    · obtain ⟨node, hat, hnode⟩ := hreference.1
      exact ⟨node, by rw [Value.at?_set_other (by decide), hat], hnode⟩
    · intro call index literal hcall hat hkind
      cases call with
      | nil => simp at hcall
      | cons step call =>
        simp only [List.cons_append, List.cons.injEq] at hcall hat ⊢
        obtain ⟨rfl, -⟩ := hcall
        rw [Value.at?_set_other (by decide), hat]

/-- The module function `function (e, t, n) { if (e) { var n; } n(1); }`. -/
def hoistingModule : Value :=
  Build.function [Build.name "e", Build.name "t", Build.name "n"]
    [Build.branch (Build.name "e") (Build.block [Build.declare (Build.name "n") .null]),
      Build.perform (Build.call (Build.name "n") [Build.number 1])]

/-- The call in `hoistingModule`. -/
def hoistingCall : Position :=
  [.field "body", .field "body", .item 1, .field "expression"]

theorem renameModule_respects_shadowing_hoisting :
    ∃ renamed, hoistingModule.IsModuleFunction ∧
      renameModule { names := [(1, .text "Foo")] } hoistingModule = .ok renamed ∧
      hoistingModule.RefersAt (hoistingCall ++ [.field "callee"]) "n" ∧
      (hoistingModule.home (hoistingCall ++ [.field "callee"]) "n").isSome = true ∧
      (renamed.module.apply hoistingModule).Names (hoistingCall ++ [.field "callee"]) "n" ∧
      (renamed.module.apply hoistingModule).at?
        (hoistingCall ++ [.field "arguments", .item 0]) = some (Build.number 1) := by
  have hmodule : hoistingModule.IsModuleFunction := by decide +kernel
  have hreference : hoistingModule.RefersAt (hoistingCall ++ [.field "callee"]) "n" :=
    ⟨⟨Build.name "n", rfl, rfl, rfl⟩, by decide +kernel⟩
  have hhome : (hoistingModule.home (hoistingCall ++ [.field "callee"]) "n").isSome = true := by
    decide +kernel
  have hok : (renameModule { names := [(1, .text "Foo")] } hoistingModule).toOption.isSome =
      true := by
    decide +kernel
  obtain ⟨renamed, hrename⟩ := Attempt.of_toOption_isSome hok
  obtain ⟨hname, hargument⟩ := renameModule_respects_shadowing hmodule hrename hreference hhome
  exact ⟨renamed, hmodule, hrename, hreference, hhome, hname,
    hargument hoistingCall 0 (Build.number 1) rfl rfl rfl⟩

end Debundle
