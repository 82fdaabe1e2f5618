import Debundle.Proofs.Rename.Rule

/-!
# Plans

What happens at a node is planned from the node and the roles around it.  A plan enters
exactly the fields that the rule does not skip, drops exactly the names that the node
declares, and replaces the argument of exactly the calls that the rule names.
-/

namespace Debundle

open Attempt Renaming

namespace Renaming

theorem HoldInside.of_scopeNames {roles inner : Roles} {value : Value} {names : List Value}
    (hnames : value.scopeNames = .ok names) (hinner : roles.without names = .ok inner) :
    HoldInside roles value inner := by
  intro name role
  rw [Roles.role?_without hinner]
  simp only [Value.Drops, hnames, Except.ok.injEq, exists_eq_left']

theorem HoldInside.self {roles : Roles} {value : Value}
    (hnames : value.scopeNames = .ok []) : HoldInside roles value roles := by
  intro name role
  simp only [Value.Drops, hnames, Except.ok.injEq, exists_eq_left', List.not_mem_nil,
    not_false_eq_true, and_true]

end Renaming

namespace Plan

variable {roles : Roles} {call literal node : Value} {registry : Registry} {plan : Plan}
  {enters : String → Bool}

theorem requireArgument?_of_call {callee : Value} {name : String}
    (hcallee : call.lookup "callee" = some callee) (hkind : callee.kind = .identifier)
    (hname : callee.lookup "name" = some (.text name)) (hrole : roles.role? name = some .require)
    (harguments : call.lookup "arguments" = some (.array [literal]))
    (hliteral : literal.kind = .literal) :
    requireArgument? roles call = .ok (some ((literal.lookup "value").getD .null)) := by
  simp [requireArgument?, hcallee, hkind, hname, hrole, harguments, hliteral,
    Value.isTruthy, Value.length, Value.item, Option.filter, bind, Except.bind, pure,
    Except.pure]

/-- Only an array of one item has one item that can be a literal. -/
theorem eq_singleton_of_item {arguments : Value} (hlength : arguments.length = .ok 1)
    (hitem : arguments.item 0 = .ok literal) (hliteral : literal.kind = .literal) :
    arguments = .array [literal] := by
  cases arguments with
  | array items =>
    simp only [Value.length, Except.ok.injEq] at hlength
    obtain ⟨item, rfl⟩ := List.length_eq_one_iff.1 hlength
    simp only [Value.item, List.getElem?_cons_zero, Except.ok.injEq] at hitem
    rw [hitem]
  | text content =>
    simp only [Value.item] at hitem
    split at hitem
    · cases hitem
      simp [Value.kind] at hliteral
    · cases hitem
  | _ => simp [Value.length, Value.item] at hlength hitem

theorem requireArgument?_eq_some {id : Value}
    (hargument : requireArgument? roles call = .ok (some id)) :
    ∃ callee name literal, call.lookup "callee" = some callee ∧
      callee.kind = .identifier ∧ callee.lookup "name" = some (.text name) ∧
      roles.role? name = some .require ∧ call.lookup "arguments" = some (.array [literal]) ∧
      literal.kind = .literal ∧ id = (literal.lookup "value").getD .null := by
  simp only [requireArgument?] at hargument
  split at hargument
  case h_2 => simp at hargument
  rename_i name hname
  split at hargument
  · cases hargument
  rename_i hcallee
  simp only [Bool.or_eq_true, decide_eq_true_eq, not_or, ne_eq, Decidable.not_not] at hcallee
  obtain ⟨hkind, hrole⟩ := hcallee
  split at hargument
  · cases hargument
  rename_i arguments harguments
  rw [Option.filter_eq_some_iff] at harguments
  rw [bind_eq_ok_iff] at hargument
  obtain ⟨count, hcount, hargument⟩ := hargument
  split at hargument
  · cases hargument
  rename_i hone
  rw [bind_eq_ok_iff] at hargument
  obtain ⟨literal, hitem, hargument⟩ := hargument
  split at hargument
  · cases hargument
  rename_i hliteral
  rw [ne_eq, Decidable.not_not] at hone hliteral
  subst hone
  have hsingle := eq_singleton_of_item hcount hitem hliteral
  subst hsingle
  rw [pure_eq_ok_iff, Option.some.injEq] at hargument
  cases hcallee : call.lookup "callee" with
  | none => simp [hcallee, Value.kind] at hkind
  | some callee =>
    rw [hcallee, Option.getD_some] at hkind hname
    exact ⟨callee, name, literal, rfl, hkind, hname, hrole, harguments.1, hliteral, hargument.symm⟩

theorem ofCall_eq_ok (hcall : call.kind = .callExpression)
    (hplan : ofCall registry roles call = .ok plan) :
    ∃ arguments own, plan = .enter roles (allBut "params") arguments own ∧
      ((∃ module, RequiresAt registry roles call [] module ∧
          arguments = some (.array [requirePath module])) ∨
        (arguments = none ∧ ∀ module, ¬ RequiresAt registry roles call [] module)) := by
  simp only [requiresAt_nil_iff]
  simp only [ofCall, bind_eq_ok_iff] at hplan
  obtain ⟨argument?, hargument, hplan⟩ := hplan
  cases argument? with
  | none =>
    simp only [pure_eq_ok_iff] at hplan
    refine ⟨none, {}, hplan.symm, .inr ⟨rfl, ?_⟩⟩
    rintro module ⟨name, ⟨-, ⟨callee, hcallee, hkind, hname⟩, literal, harguments, hliteral,
      -⟩, hrole⟩
    rw [requireArgument?_of_call hcallee hkind hname hrole harguments hliteral] at hargument
    cases hargument
  | some id =>
    obtain ⟨callee, name, literal, hcallee, hkind, hname, hrole, harguments, hliteral, rfl⟩ :=
      requireArgument?_eq_some hargument
    simp only [bind_eq_ok_iff] at hplan
    obtain ⟨name?, hresolve, hplan⟩ := hplan
    cases name? with
    | some module =>
      simp only [pure_eq_ok_iff] at hplan
      refine ⟨_, _, hplan.symm, .inl ⟨module, ⟨name, ⟨hcall, ⟨callee, hcallee, hkind,
        hname⟩, literal, harguments, hliteral, hresolve⟩, hrole⟩, rfl⟩⟩
    | none =>
      simp only [pure_eq_ok_iff] at hplan
      refine ⟨none, _, hplan.symm, .inr ⟨rfl, ?_⟩⟩
      rintro module ⟨-, ⟨-, -, other, hother, -, hmodule⟩, -⟩
      cases harguments.symm.trans hother
      cases hresolve.symm.trans hmodule


/-- What a plan to go on inside a node says: which fields are entered, with which roles,
and whether the argument of a `require` call is replaced. -/
structure GoesInside (registry : Registry) (roles : Roles) (node : Value) (inner : Roles)
    (enters : String → Bool) (arguments : Option Value) : Prop where
  kind : node.kind ≠ .identifier
  enters_eq : ∀ key, enters key = !node.skips key
  inside : HoldInside roles node inner
  arguments_eq :
    (∃ module, RequiresAt registry roles node [] module ∧
      arguments = some (.array [requirePath module])) ∨
    (arguments = none ∧ ∀ module, ¬ RequiresAt registry roles node [] module)

theorem not_requiresAt_of_kind (hkind : node.kind ≠ .callExpression) (module : Value) :
    ¬ RequiresAt registry roles node [] module := by
  rw [requiresAt_nil_iff]
  rintro ⟨callee, hcall, -⟩
  exact hkind hcall.kind

/-- A node that declares nothing and is no call is entered with the same roles. -/
theorem GoesInside.of_plain (hkind : node.kind ≠ .identifier) (hcall : node.kind ≠ .callExpression)
    (hnames : node.scopeNames = .ok []) (henters : ∀ key, enters key = !node.skips key) :
    GoesInside registry roles node roles enters none :=
  ⟨hkind, henters, .self hnames, .inr ⟨rfl, not_requiresAt_of_kind hcall⟩⟩

/-- A node that declares names is entered with the roles of the others. -/
theorem GoesInside.of_scope {inner : Roles} {names : List Value} (hkind : node.kind ≠ .identifier)
    (hcall : node.kind ≠ .callExpression) (hnames : node.scopeNames = .ok names)
    (hinner : roles.without names = .ok inner) (henters : ∀ key, enters key = !node.skips key) :
    GoesInside registry roles node inner enters none :=
  ⟨hkind, henters, .of_scopeNames hnames hinner, .inr ⟨rfl, not_requiresAt_of_kind hcall⟩⟩

theorem ofKeyed_eq_enter (roles : Roles) {property : Value}
    (hkind : property.kind = .property ∨ property.kind = .methodDefinition) :
    ∃ enters, ofKeyed roles property = .enter roles enters none {} ∧
      ∀ key, enters key = !property.skips key := by
  have hskips : ∀ key, property.skips key =
      if property.flag "computed" then key == "params"
      else if property.flag "shorthand" &&
        ((property.lookup "value").getD .null).kind == .identifier then key != "value"
      else key == "key" := by
    intro key
    rcases hkind with hkind | hkind <;> simp only [Value.skips, hkind]
  simp only [ofKeyed, hskips]
  split
  · exact ⟨_, rfl, fun _ => rfl⟩
  · split
    · exact ⟨_, rfl, fun _ => (Bool.not_not _).symm⟩
    · exact ⟨_, rfl, fun _ => rfl⟩

/-- The three things that a renaming can plan at a node. -/
theorem ofNode_eq_ok {tag : String} {fields : Fields}
    (hplan : ofNode registry roles (.node tag fields) = .ok plan) :
    (plan = .keep ∧ (∀ key, (Value.node tag fields).skips key = true) ∧
      ∀ name, Fields.get? fields "name" = some (.text name) →
        Kind.ofTag tag = .identifier → roles.role? name = none) ∨
    (∃ name role, plan = .refer role ∧ Kind.ofTag tag = .identifier ∧
      Fields.get? fields "name" = some (.text name) ∧ roles.role? name = some role) ∨
    (∃ inner enters arguments own, plan = .enter inner enters arguments own ∧
      GoesInside registry roles (.node tag fields) inner enters arguments) := by
  simp only [ofNode] at hplan
  split at hplan
  · rename_i hkind
    have hskips : ∀ key, (Value.node tag fields).skips key = true := by
      intro key
      simp only [Value.skips, hkind]
    split at hplan
    · rename_i name hname
      cases hrole : roles.role? name with
      | none =>
        simp only [hrole, Option.elim_none, Except.ok.injEq] at hplan
        refine .inl ⟨hplan.symm, hskips, fun other hother _ => ?_⟩
        cases hname.symm.trans hother
        exact hrole
      | some role =>
        simp only [hrole, Option.elim_some, Except.ok.injEq] at hplan
        exact .inr (.inl ⟨name, role, hplan.symm, hkind, hname, hrole⟩)
    · rename_i hname
      cases hplan
      exact .inl ⟨rfl, hskips, fun name hother _ => absurd hother (hname name)⟩
  · rename_i hkind
    obtain ⟨arguments, own, rfl, harguments⟩ := ofCall_eq_ok hkind hplan
    refine .inr (.inr ⟨_, _, _, _, rfl, by simp [hkind], fun key => ?_, .self ?_, harguments⟩)
    · simp only [Value.skips, hkind]
      rfl
    · simp only [Value.scopeNames, show Kind.ofTag tag = .callExpression from hkind]
  case h_3 | h_4 | h_5 | h_6 =>
    rename_i hkind
    simp only [bind_eq_ok_iff, pure_eq_ok_iff] at hplan
    obtain ⟨names, hnames, inner, hinner, rfl⟩ := hplan
    refine .inr (.inr ⟨_, _, _, _, rfl, .of_scope (by simp [hkind]) (by simp [hkind])
      (Eq.trans ?_ hnames) hinner fun key => ?_⟩)
    · simp only [Value.scopeNames, show Kind.ofTag tag = _ from hkind]
    · simp only [Value.skips, hkind]
      rfl
  case h_7 =>
    rename_i hkind
    have hnames : (Value.node tag fields).scopeNames = .ok [] := by
      simp only [Value.scopeNames, show Kind.ofTag tag = _ from hkind]
    split at hplan
    all_goals
      rename_i hcomputed
      cases hplan
      refine .inr (.inr ⟨_, _, _, _, rfl, .of_plain (by simp [hkind]) (by simp [hkind]) hnames
        fun key => ?_⟩)
      simp only [Value.skips, hkind, hcomputed]
      rfl
  case h_8 | h_9 =>
    rename_i hkind
    have hnames : (Value.node tag fields).scopeNames = .ok [] := by
      simp only [Value.scopeNames, show Kind.ofTag tag = _ from hkind]
    have hkeyed : (Value.node tag fields).kind = .property ∨
        (Value.node tag fields).kind = .methodDefinition := by
      simp [hkind]
    obtain ⟨enters, heq, henters⟩ := ofKeyed_eq_enter roles hkeyed
    rw [heq] at hplan
    cases hplan
    exact .inr (.inr ⟨_, _, _, _, rfl, .of_plain (by simp [hkind]) (by simp [hkind]) hnames
      henters⟩)
  case h_10 | h_11 | h_12 =>
    rename_i hkind
    cases hplan
    refine .inr (.inr ⟨_, _, _, _, rfl, .of_plain (by simp [hkind]) (by simp [hkind]) ?_
      fun key => ?_⟩)
    · simp only [Value.scopeNames, show Kind.ofTag tag = _ from hkind]
    · simp only [Value.skips, hkind]
      rfl
  case h_13 =>
    rename_i hkind
    cases hplan
    refine .inl ⟨rfl, fun key => ?_, fun name _ hidentifier => ?_⟩
    · simp only [Value.skips, hkind]
    · cases hkind.symm.trans hidentifier
  case h_14 =>
    rename_i hidentifier hcall hexpression hdeclaration harrow hcatch hmember hproperty hmethod
      hlabeled hbreak hcontinue hmeta
    cases hplan
    refine .inr (.inr ⟨_, _, _, _, rfl, .of_plain hidentifier hcall ?_ fun key => ?_⟩)
    · simp only [Value.scopeNames]
      split
      all_goals simp_all [Value.kind]
    · simp only [Value.skips]
      rfl

section

variable {registry : Registry} {roles inner : Roles} {node : Value} {tag key : String}
  {fields : Fields} {enters : String → Bool} {arguments : Option Value}

/-- A node that stays as it is skips all its fields and is no reference. -/
theorem ofNode_eq_keep (hplan : ofNode registry roles (.node tag fields) = .ok .keep) :
    (∀ key, (Value.node tag fields).skips key = true) ∧
      ∀ name, Fields.get? fields "name" = some (.text name) →
        Kind.ofTag tag = .identifier → roles.role? name = none := by
  obtain ⟨-, hkeep⟩ | ⟨_, _, heq, -⟩ | ⟨_, _, _, _, heq, -⟩ := ofNode_eq_ok hplan
  · exact hkeep
  · cases heq
  · cases heq

theorem ofNode_eq_refer {role : Role}
    (hplan : ofNode registry roles (.node tag fields) = .ok (.refer role)) :
    ∃ name, Kind.ofTag tag = .identifier ∧ Fields.get? fields "name" = some (.text name) ∧
      roles.role? name = some role := by
  obtain ⟨heq, -⟩ | ⟨name, _, heq, hrefer⟩ | ⟨_, _, _, _, heq, -⟩ := ofNode_eq_ok hplan
  · cases heq
  · cases heq
    exact ⟨name, hrefer⟩
  · cases heq

theorem ofNode_eq_enter {own : Tally}
    (hplan : ofNode registry roles (.node tag fields) = .ok (.enter inner enters arguments own)) :
    GoesInside registry roles (.node tag fields) inner enters arguments := by
  obtain ⟨heq, -⟩ | ⟨_, _, heq, -⟩ | ⟨_, _, _, _, heq, hinside⟩ := ofNode_eq_ok hplan
  · cases heq
  · cases heq
  · cases heq
    exact hinside

/-- A plan replaces the arguments of the calls that the rule names, and no other field. -/
theorem GoesInside.filter_eq_none_iff
    (hinside : GoesInside registry roles node inner enters arguments) :
    (arguments.filter fun _ => key == "arguments") = none ↔
      ¬ (key = "arguments" ∧ ∃ module, RequiresAt registry roles node [] module) := by
  rcases hinside.arguments_eq with ⟨module, hrequires, rfl⟩ | ⟨rfl, hnone⟩
  · have hsome : ∃ module, RequiresAt registry roles node [] module := ⟨module, hrequires⟩
    simp [Option.filter_some, hsome]
  · simp [hnone]

/-- If a plan goes inside a node, it enters the fields that the rule enters. -/
theorem GoesInside.enters_iff (hinside : GoesInside registry roles node inner enters arguments) :
    Enters registry roles node (.field key) ↔
      enters key = true ∧ (arguments.filter fun _ => key == "arguments") = none := by
  have hskips : Edge.isSkipped ⟨node, .field key⟩ = false ↔ enters key = true := by
    rw [hinside.enters_eq, Bool.not_eq_true']
    rfl
  rw [Enters, hskips, hinside.filter_eq_none_iff, Step.field.injEq]

end

end Plan

end Debundle
