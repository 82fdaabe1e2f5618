import Debundle.Proofs.Rename.Declarations

/-!
# Plans for a renamed tree

At a node that was renamed, the same is planned as before: the same fields are entered, with
the same roles.  Only the argument of a call of `require` is not replaced again, for the path
of a file is never the id of a module.
-/

namespace Debundle

open Attempt Renaming

/-- A name that is the word of a role has no other role. -/
def Roles.KeepsWords (roles : Roles) : Prop :=
  ∀ role other, roles.role? (Role.word role) = some other → other = role

theorem Roles.KeepsWords.within {roles inner : Roles} (hwords : roles.KeepsWords)
    (hwithin : inner.Within roles) : inner.KeepsWords :=
  fun role other hother => hwords role other (hwithin _ _ hother)

theorem moduleIndex_of_branch {value : Value} (hbranch : value.isBranch = true) :
    moduleIndex value = .ok none := by
  cases value with
  | node | array => rfl
  | _ => cases hbranch

/-- The path of a file is not the id of a module. -/
theorem resolve_path (registry : Registry) (name : String) :
    registry.resolve (.text ("./" ++ name)) = .ok none := by
  simp [Registry.resolve, moduleIndex]

namespace Value

variable {registry : Registry} {roles : Roles} {before after : Value}

/-- The role of a renamed identifier is the one that it had before. -/
theorem RevisedWithin.role?_of_name {name : String} {role : Role}
    (hrevised : RevisedWithin registry roles before after) (hwords : roles.KeepsWords)
    (hkind : before.kind = .identifier) (hname : after.lookup "name" = some (.text name))
    (hrole : roles.role? name = some role) :
    ∃ text, before.lookup "name" = some (.text text) ∧ roles.role? text = some role := by
  obtain ⟨inner, hwithin, hrename⟩ := hrevised
  cases hrename.renameStep with
  | idle | leaf | keep => exact ⟨name, hname, hrole⟩
  | items => cases hkind
  | @refer tag fields text other _ htext hother =>
    rw [lookup_node, Fields.get?_set, if_pos rfl] at hname
    cases hname
    cases hwords other role hrole
    exact ⟨text, htext, hwithin text _ hother⟩
  | fields hinside => exact absurd hkind hinside.kind

/-- A literal that names no module names none after it was renamed. -/
theorem Revised.resolve_value (hrevised : Revised registry before after)
    (hnone : registry.resolve ((before.lookup "value").getD .null) = .ok none) :
    registry.resolve ((after.lookup "value").getD .null) = .ok none := by
  rcases hrevised.lookup_eq_or_branches "value" rfl with
    hsame | ⟨-, new, -, hnew, -, hbranch⟩
  · rw [hsame, hnone]
  · rw [hnew, Option.getD_some, Registry.resolve, moduleIndex_of_branch hbranch]
    rfl

/-- What is skipped is found as it was. -/
theorem Revised.lookup_of_skips {key : String} (hrevised : Revised registry before after)
    (hidentifier : before.kind ≠ .identifier) (hcall : before.kind ≠ .callExpression)
    (hskips : before.skips key = true) : after.lookup key = before.lookup key := by
  rcases hrevised.lookup_cases key with
    ⟨hbefore, hafter⟩ | ⟨old, new, hold, hnew, (⟨-, hkept⟩ | ⟨hkind, -⟩) | ⟨hkind, -⟩⟩
  · rw [hbefore, hafter]
  · rw [hold, hnew, hkept hskips]
  · exact absurd hkind hcall
  · exact absurd hkind hidentifier

theorem paramNames_of_node (tag : String) (fields : Fields) :
    (Value.node tag fields).paramNames =
      ((Value.node tag fields).listAt "params").map (List.map Part.value) >>= fun params =>
        params.mapM boundNames >>= fun names => pure names.flatten := by
  rw [paramNames]
  show ((Value.node tag fields).listAt "params" >>= _) = _
  cases (Value.node tag fields).listAt "params" with
  | error fault => rfl
  | ok parts =>
    show _ = (parts.map Part.value).mapM boundNames >>= _
    rw [List.mapM_map]
    rfl

/-- The parameters of a function are told by the field that holds them. -/
theorem paramNames_congr {tag : String} {fields others : Fields}
    (hparams : Fields.get? others "params" = Fields.get? fields "params") :
    (Value.node tag others).paramNames = (Value.node tag fields).paramNames := by
  rw [paramNames_of_node, paramNames_of_node, listAt_map_value, listAt_map_value, lookup_node,
    lookup_node, hparams]

end Value

namespace Plan

variable {registry : Registry} {roles : Roles} {call : Value}

/-- The callee is an identifier with the role of `require`. -/
def CallsRequire (roles : Roles) (call : Value) : Prop :=
  ∃ callee name, call.lookup "callee" = some callee ∧ callee.kind = .identifier ∧
    callee.lookup "name" = some (.text name) ∧ roles.role? name = some .require

theorem requireArgument?_of_not (hcalls : ¬ CallsRequire roles call) :
    requireArgument? roles call = .ok none := by
  rw [requireArgument?]
  cases hcallee : call.lookup "callee" with
  | none => rfl
  | some callee =>
    by_cases hkind : callee.kind = .identifier
    · split
      · rename_i name hname
        have hrole : roles.role? name ≠ some .require :=
          fun hrole => hcalls ⟨callee, name, hcallee, hkind, hname, hrole⟩
        simp [hrole, pure, Except.pure]
      · simp [pure, Except.pure]
    · simp [hkind, pure, Except.pure]

theorem requireArgument?_isSome (hcalls : CallsRequire roles call) :
    (requireArgument? roles call).map Option.isSome = call.takesOnly .literal := by
  obtain ⟨callee, name, hcallee, hkind, hname, hrole⟩ := hcalls
  rw [requireArgument?, Value.takesOnly, hcallee]
  simp only [Option.getD_some, hname, hrole, hkind]
  cases call.lookup "arguments" with
  | none => rfl
  | some arguments =>
    rw [Option.filter_some, Option.elim_some]
    cases arguments.isTruthy with
    | false => rfl
    | true =>
      show (arguments.length >>= _).map _ = arguments.length >>= _
      cases arguments.length with
      | error fault => rfl
      | ok count =>
        by_cases hcount : count = 1
        · subst hcount
          show (arguments.item 0 >>= _).map _ = ((arguments.item 0).map _).map _
          cases arguments.item 0 with
          | error fault => rfl
          | ok argument =>
            by_cases hliteral : argument.kind = .literal
            · simp [hliteral, ok_bind, pure, Except.pure, Except.map]
            · simp [hliteral, ok_bind, pure, Except.pure, Except.map]
        · simp [hcount, ok_bind, pure, Except.pure, Except.map]

variable {before after : Value} {inner : Roles} {enters : String → Bool} {arguments : Option Value}
  {own : Tally} {tag : String} {fields others : Fields}

/-- A renamed call is one of `require` only if it was one before. -/
theorem CallsRequire.of_renamed (hwords : roles.KeepsWords)
    (hrevised : Value.RevisedWithin registry roles before after)
    (hcalls : CallsRequire roles after) : CallsRequire roles before := by
  obtain ⟨callee, name, hcallee, hkind, hname, hrole⟩ := hcalls
  rcases hrevised.lookup_plain "callee" rfl with
    ⟨-, hnone⟩ | ⟨old, new, hold, hnew, hpart⟩
  · cases hnone.symm.trans hcallee
  · cases hnew.symm.trans hcallee
    have hidentifier : old.kind = .identifier := hpart.revised.kind_eq ▸ hkind
    obtain ⟨text, htext, htextRole⟩ := hpart.role?_of_name hwords hidentifier hname hrole
    exact ⟨old, text, hold, hidentifier, htext, htextRole⟩

/-- A literal that was renamed or replaced names no module. -/
theorem resolve_of_renamed {literal renamed : Value} {name? : Option Value}
    (hresolve : registry.resolve ((literal.lookup "value").getD .null) = .ok name?)
    (hfield : Value.FieldRenamesTo registry roles (allBut "params")
      (name?.map fun name => .array [requirePath name]) "arguments" (.array [literal])
      (.array [renamed])) :
    registry.resolve ((renamed.lookup "value").getD .null) = .ok none := by
  cases name? with
  | some name =>
    cases hfield
    exact resolve_path registry name.display
  | none =>
    have hrevised : Value.Revised registry (.array [literal]) (.array [renamed]) := ⟨roles, hfield⟩
    obtain ⟨other, hother, hpart⟩ := hrevised.item_follows 0 literal rfl
    cases hother
    exact hpart.resolve_value hresolve

/-- In a renamed call no argument is replaced again. -/
theorem ofCall_again (hwords : roles.KeepsWords)
    (hrevised : Value.RevisedWithin registry roles before after)
    (hplan : ofCall registry roles before = .ok (.enter inner enters arguments own))
    (harguments : ∀ old, before.lookup "arguments" = some old →
      ∃ new, after.lookup "arguments" = some new ∧
        Value.FieldRenamesTo registry roles (allBut "params") arguments "arguments" old new) :
    ∃ tally, ofCall registry roles after = .ok (.enter roles (allBut "params") none tally) ∧
      tally.rewritten = 0 := by
  by_cases hcalls : CallsRequire roles after
  · have hsome : (requireArgument? roles after).map Option.isSome =
        (requireArgument? roles before).map Option.isSome := by
      have hcallsBefore := hcalls.of_renamed hwords hrevised
      rw [requireArgument?_isSome hcalls, requireArgument?_isSome hcallsBefore,
        hrevised.revised.takesOnly_eq]
    obtain ⟨argument?, hargument, hplan⟩ := bind_eq_ok_iff.1 hplan
    rw [hargument] at hsome
    obtain ⟨again?, hagain, hisSome⟩ := map_eq_ok_iff.1 hsome
    rw [ofCall, hagain]
    cases again? with
    | none => exact ⟨{}, rfl, rfl⟩
    | some id =>
      cases argument? with
      | none => cases hisSome
      | some old =>
        obtain ⟨_, _, literal, -, -, -, -, hliteral, -, rfl⟩ := requireArgument?_eq_some hargument
        obtain ⟨_, _, renamed, -, -, -, -, hrenamed, -, rfl⟩ := requireArgument?_eq_some hagain
        obtain ⟨new, hnew, hfield⟩ := harguments _ hliteral
        cases hnew.symm.trans hrenamed
        obtain ⟨name?, hresolve, hplan⟩ := bind_eq_ok_iff.1 hplan
        have hunknown : registry.resolve ((renamed.lookup "value").getD .null) = .ok none := by
          cases name? <;> cases hplan <;> exact resolve_of_renamed hresolve hfield
        refine ⟨{ unresolved := [(renamed.lookup "value").getD .null] }, ?_, rfl⟩
        show registry.resolve _ >>= _ = _
        rw [hunknown]
        rfl
  · rw [ofCall, requireArgument?_of_not hcalls]
    exact ⟨{}, rfl, rfl⟩

/-- At a node that is no reference and no call, the same is planned before and after a
renaming. -/
theorem ofNode_of_revised (hrevised : Value.Revised registry (.node tag fields) (.node tag others))
    (hidentifier : Kind.ofTag tag ≠ .identifier) (hcall : Kind.ofTag tag ≠ .callExpression) :
    ofNode registry roles (.node tag others) = ofNode registry roles (.node tag fields) := by
  have hskipped : ∀ key, (Value.node tag fields).skips key = true →
      Fields.get? others key = Fields.get? fields key :=
    fun key => hrevised.lookup_of_skips hidentifier hcall
  have hcomputed := hrevised.flag_eq "computed" rfl
  have hshorthand := hrevised.flag_eq "shorthand" rfl
  have hvalue : (((Value.node tag others).lookup "value").getD .null).kind =
      (((Value.node tag fields).lookup "value").getD .null).kind := by
    rcases hrevised.lookup_plain "value" rfl with
      ⟨hbefore, hafter⟩ | ⟨old, new, hold, hnew, hpart⟩
    · rw [hbefore, hafter]
    · rw [hold, hnew]
      exact hpart.kind_eq
  simp only [ofNode, ofKeyed, hcomputed, hshorthand, hvalue]
  simp only [Value.kind, Value.skips] at hskipped ⊢
  cases hkind : Kind.ofTag tag with
  | identifier => exact absurd hkind hidentifier
  | callExpression => exact absurd hkind hcall
  | functionExpression | functionDeclaration | arrowFunctionExpression =>
    rw [hkind] at hskipped
    simp only [Value.paramNames_congr (hskipped "params" rfl)]
  | catchClause =>
    rw [hkind] at hskipped
    simp only [Value.boundNamesAt, Value.lookup_node, hskipped "param" rfl]
  | _ => rfl

/-- At a node that is no call nothing is replaced and nothing is counted. -/
theorem ofNode_of_other (hcall : Kind.ofTag tag ≠ .callExpression)
    (hplan : ofNode registry roles (.node tag fields) = .ok (.enter inner enters arguments own)) :
    Kind.ofTag tag ≠ .identifier ∧ arguments = none ∧ own = {} := by
  have hidentifier : Kind.ofTag tag ≠ .identifier := (ofNode_eq_enter hplan).kind
  refine ⟨hidentifier, ?_⟩
  simp only [ofNode, Value.kind] at hplan
  cases hkind : Kind.ofTag tag with
  | identifier => exact absurd hkind hidentifier
  | callExpression => exact absurd hkind hcall
  | functionExpression | functionDeclaration | arrowFunctionExpression | catchClause =>
    simp only [hkind, bind_eq_ok_iff, pure_eq_ok_iff] at hplan
    obtain ⟨names, -, roles, -, hsame⟩ := hplan
    cases hsame
    exact ⟨rfl, rfl⟩
  | memberExpression =>
    simp only [hkind] at hplan
    split_ifs at hplan <;> cases hplan <;> exact ⟨rfl, rfl⟩
  | property | methodDefinition =>
    have hkeyed : (Value.node tag fields).kind = .property ∨
        (Value.node tag fields).kind = .methodDefinition := by
      simp [Value.kind, hkind]
    obtain ⟨entered, hsame, -⟩ := ofKeyed_eq_enter roles hkeyed
    simp only [hkind, hsame] at hplan
    cases hplan
    exact ⟨rfl, rfl⟩
  | metaProperty =>
    simp only [hkind] at hplan
    cases hplan
  | _ =>
    simp only [hkind] at hplan
    cases hplan
    exact ⟨rfl, rfl⟩

/-- What was planned at a node is planned again at the renamed node, but no argument is
replaced. -/
theorem ofNode_again (hwords : roles.KeepsWords)
    (hplan : ofNode registry roles (.node tag fields) = .ok (.enter inner enters arguments own))
    (hfields : Fields.Related (Value.FieldRenamesTo registry inner enters arguments) fields others)
    (hrename : Value.RenamesTo registry roles (.node tag fields) (.node tag others)) :
    ∃ tally, ofNode registry roles (.node tag others) = .ok (.enter inner enters none tally) ∧
      tally.rewritten = 0 := by
  by_cases hcall : Kind.ofTag tag = .callExpression
  · have hofCall : ∀ fields, ofNode registry roles (.node tag fields) =
        ofCall registry roles (.node tag fields) := by
      intro fields
      simp only [ofNode, Value.kind, hcall]
    rw [hofCall] at hplan
    rw [hofCall]
    have hkind : (Value.node tag fields).kind = .callExpression := hcall
    obtain ⟨argument?, own, hsame, -⟩ := ofCall_eq_ok hkind hplan
    cases hsame
    exact ofCall_again hwords ⟨_, .refl _, hrename⟩ hplan fun old hold => hfields.get? hold
  · obtain ⟨hidentifier, rfl, rfl⟩ := ofNode_of_other hcall hplan
    rw [ofNode_of_revised ⟨roles, hrename⟩ hidentifier hcall, hplan]
    exact ⟨_, rfl, rfl⟩

end Plan

end Debundle
