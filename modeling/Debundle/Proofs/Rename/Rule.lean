import Debundle.Module.Rename
import Debundle.Proofs.Rename.Roles
import Debundle.Proofs.Tree.Position

/-!
# Where a renaming changes a tree

The renaming walks through a tree and carries along the roles that are left.  The rule
below says the same without a walk: it looks at a position and at the edges above it.
A reference is renamed if no edge above it is skipped and no scope above it declares its
name anew; the argument of a call is replaced if the call is one of `require`.
-/

namespace Debundle

namespace Value

/-- The renaming leaves this field of a node as it is. -/
def skips (node : Value) (key : String) : Bool :=
  match node.kind with
  | .identifier | .metaProperty => true
  | .catchClause => key == "param"
  | .memberExpression => if node.flag "computed" then key == "params" else key == "property"
  | .property | .methodDefinition =>
    if node.flag "computed" then key == "params"
    else if node.flag "shorthand" && ((node.lookup "value").getD .null).kind == .identifier then
      key != "value"
    else key == "key"
  | .labeledStatement | .breakStatement | .continueStatement => key == "label"
  | _ => key == "params"

/-- The names that a value declares anew for everything inside it: a function its
parameters, a `catch` clause its parameter, an array the names hoisted out of it. -/
def scopeNames (value : Value) : Except Fault (List Value) :=
  match value with
  | .array items => hoistedNames (.array items)
  | .node tag fields =>
    match Kind.ofTag tag with
    | .functionExpression | .functionDeclaration | .arrowFunctionExpression =>
      paramNames (.node tag fields)
    | .catchClause => boundNamesAt (.node tag fields) "param"
    | _ => .ok []
  | _ => .ok []

def Drops (value : Value) (name : String) : Prop :=
  ∃ names, value.scopeNames = .ok names ∧ Value.text name ∈ names

/-- The call has one argument, a literal for a known module, and its callee is an
identifier. -/
structure CallsFor (registry : Registry) (call : Value) (callee : String) (module : Value) :
    Prop where
  kind : call.kind = .callExpression
  callee : ∃ node, call.lookup "callee" = some node ∧ node.kind = .identifier ∧
    node.lookup "name" = some (.text callee)
  argument : ∃ literal, call.lookup "arguments" = some (.array [literal]) ∧
    literal.kind = .literal ∧
    registry.resolve ((literal.lookup "value").getD .null) = .ok (some module)

end Value

/-- The edge leads into a field that the renaming leaves as it is. -/
def Edge.isSkipped (edge : Edge) : Bool :=
  match edge.step with
  | .item _ => false
  | .field key => edge.parent.skips key

/-- The name has this role, and no scope above the position declares it anew. -/
def Roles.BoundAt (roles : Roles) (root : Value) (position : Position) (name : String)
    (role : Role) : Prop :=
  roles.role? name = some role ∧
    ∀ above edge, root.Crosses position above edge → ¬ edge.parent.Drops name

/-- The call has one argument, a literal, and its callee is an identifier. -/
structure Value.CallsWith (call : Value) (callee : String) (literal : Value) : Prop where
  kind : call.kind = .callExpression
  callee : ∃ node, call.lookup "callee" = some node ∧ node.kind = .identifier ∧
    node.lookup "name" = some (.text callee)
  arguments : call.lookup "arguments" = some (.array [literal])
  literal : literal.kind = .literal

/-- A call of `require` with one literal stands at the position. -/
def RequireCall (roles : Roles) (root : Value) (position : Position) (literal : Value) : Prop :=
  ∃ call callee, root.at? position = some call ∧ call.CallsWith callee literal ∧
    roles.BoundAt root position callee .require

namespace Renaming

/-- A call of `require` for a known module stands at the position. -/
def RequiresAt (registry : Registry) (roles : Roles) (root : Value) (position : Position)
    (module : Value) : Prop :=
  ∃ call callee, root.at? position = some call ∧ call.CallsFor registry callee module ∧
    roles.BoundAt root position callee .require

/-- No edge above the position is skipped, and none leads into a replaced argument. -/
def Visited (registry : Registry) (roles : Roles) (root : Value) (position : Position) :
    Prop :=
  ∀ above edge, root.Crosses position above edge →
    edge.isSkipped = false ∧
      ¬ (edge.step = .field "arguments" ∧
        ∃ module, RequiresAt registry roles root above module)

/-- The renaming puts a value at a position. -/
inductive Change (registry : Registry) (roles : Roles) (root : Value) :
    Position → Value → Prop where
  | reference {position : Position} {tag : String} {fields : Fields} {name : String}
      {role : Role} :
      root.at? position = some (.node tag fields) → Kind.ofTag tag = .identifier →
      Fields.get? fields "name" = some (.text name) →
      Visited registry roles root position → roles.BoundAt root position name role →
      Change registry roles root position
        (.node tag (Fields.set fields "name" (.text role.word)))
  | argument {position : Position} {module : Value} :
      RequiresAt registry roles root position module →
      Visited registry roles root position →
      Change registry roles root (position ++ [.field "arguments"])
        (.array [requirePath module])

/-- The roles that hold inside a value in which `roles` hold. -/
def HoldInside (roles : Roles) (value : Value) (inner : Roles) : Prop :=
  ∀ name role, inner.role? name = some role ↔
    roles.role? name = some role ∧ ¬ value.Drops name

variable {registry : Registry} {roles inner : Roles} {root child : Value} {step : Step}
  {rest : Position} {name : String} {role : Role} {module value : Value}

theorem boundAt_nil_iff : roles.BoundAt root [] name role ↔ roles.role? name = some role := by
  constructor
  · exact fun hbound => hbound.1
  · exact fun hrole => ⟨hrole, fun _ _ hcross => absurd hcross (Value.not_crosses_nil _ _ _)⟩

theorem boundAt_cons_iff (hchild : root.child? step = some child)
    (hinner : HoldInside roles root inner) :
    roles.BoundAt root (step :: rest) name role ↔ inner.BoundAt child rest name role := by
  constructor
  · rintro ⟨hrole, hkept⟩
    have hfirst := hkept [] ⟨root, step⟩ (Value.crosses_cons_iff.2 (.inl ⟨rfl, rfl⟩))
    refine ⟨(hinner name role).2 ⟨hrole, hfirst⟩, fun above edge hcross => ?_⟩
    exact hkept (step :: above) edge
      (Value.crosses_cons_iff.2 (.inr ⟨child, above, hchild, rfl, hcross⟩))
  · rintro ⟨hrole, hkept⟩
    obtain ⟨houter, hroot⟩ := (hinner name role).1 hrole
    refine ⟨houter, fun above edge hcross => ?_⟩
    rcases Value.crosses_cons_iff.1 hcross with ⟨-, rfl⟩ | ⟨other, below, hother, -, hbelow⟩
    · exact hroot
    · cases hchild.symm.trans hother
      exact hkept below edge hbelow

theorem requiresAt_nil_iff :
    RequiresAt registry roles root [] module ↔
      ∃ callee, root.CallsFor registry callee module ∧ roles.role? callee = some .require := by
  simp only [RequiresAt, Value.at?_nil, Option.some.injEq, boundAt_nil_iff]
  constructor
  · rintro ⟨call, callee, rfl, hcall⟩
    exact ⟨callee, hcall⟩
  · rintro ⟨callee, hcall⟩
    exact ⟨root, callee, rfl, hcall⟩

theorem requiresAt_cons_iff (hchild : root.child? step = some child)
    (hinner : HoldInside roles root inner) :
    RequiresAt registry roles root (step :: rest) module ↔
      RequiresAt registry inner child rest module := by
  simp only [RequiresAt, Value.at?_cons, hchild, Option.bind_some, boundAt_cons_iff hchild hinner]

theorem requireCall_cons_iff (hchild : root.child? step = some child)
    (hinner : HoldInside roles root inner) {literal : Value} :
    RequireCall roles root (step :: rest) literal ↔ RequireCall inner child rest literal := by
  simp only [RequireCall, Value.at?_cons, hchild, Option.bind_some, boundAt_cons_iff hchild hinner]

/-- The renaming enters the child of `root` at `step`. -/
def Enters (registry : Registry) (roles : Roles) (root : Value) (step : Step) : Prop :=
  Edge.isSkipped ⟨root, step⟩ = false ∧
    ¬ (step = .field "arguments" ∧ ∃ module, RequiresAt registry roles root [] module)

theorem visited_nil : Visited registry roles root [] :=
  fun _ _ hcross => absurd hcross (Value.not_crosses_nil _ _ _)

theorem visited_cons_iff (hchild : root.child? step = some child)
    (hinner : HoldInside roles root inner) :
    Visited registry roles root (step :: rest) ↔
      Enters registry roles root step ∧ Visited registry inner child rest := by
  constructor
  · intro hvisited
    refine ⟨hvisited [] ⟨root, step⟩ (Value.crosses_cons_iff.2 (.inl ⟨rfl, rfl⟩)), ?_⟩
    intro above edge hcross
    have hedge := hvisited (step :: above) edge
      (Value.crosses_cons_iff.2 (.inr ⟨child, above, hchild, rfl, hcross⟩))
    simpa only [requiresAt_cons_iff hchild hinner] using hedge
  · rintro ⟨henters, hvisited⟩ above edge hcross
    rcases Value.crosses_cons_iff.1 hcross with ⟨rfl, rfl⟩ | ⟨other, below, hother, rfl, hbelow⟩
    · exact henters
    · cases hchild.symm.trans hother
      simpa only [requiresAt_cons_iff hchild hinner] using hvisited below edge hbelow

theorem change_nil_iff :
    Change registry roles root [] value ↔
      ∃ tag fields name role, root = .node tag fields ∧ Kind.ofTag tag = .identifier ∧
        Fields.get? fields "name" = some (.text name) ∧ roles.role? name = some role ∧
        value = .node tag (Fields.set fields "name" (.text role.word)) := by
  constructor
  · intro hchange
    generalize hposition : ([] : Position) = position at hchange
    cases hchange with
    | reference hat hkind hname hvisited hbound =>
      subst hposition
      exact ⟨_, _, _, _, Option.some.inj hat, hkind, hname, hbound.1, rfl⟩
    | argument hrequires hvisited => simp at hposition
  · rintro ⟨tag, fields, name, role, rfl, hkind, hname, hrole, rfl⟩
    exact .reference rfl hkind hname visited_nil (boundAt_nil_iff.2 hrole)

/-- A reference with a role is changed. -/
theorem change_nil_of_role {tag : String} {fields : Fields} (hkind : Kind.ofTag tag = .identifier)
    (hname : Fields.get? fields "name" = some (.text name)) (hrole : roles.role? name = some role) :
    Change registry roles (.node tag fields) []
      (.node tag (Fields.set fields "name" (.text role.word))) :=
  change_nil_iff.2 ⟨tag, fields, name, role, rfl, hkind, hname, hrole, rfl⟩

/-- A change inside a value is the replaced argument of the value, or a change inside a
child that the renaming enters. -/
theorem change_cons_iff (hchild : root.child? step = some child)
    (hinner : HoldInside roles root inner) :
    Change registry roles root (step :: rest) value ↔
      (step = .field "arguments" ∧ rest = [] ∧ ∃ module,
        RequiresAt registry roles root [] module ∧ value = .array [requirePath module]) ∨
      (Enters registry roles root step ∧ Change registry inner child rest value) := by
  constructor
  · intro hchange
    generalize hposition : step :: rest = position at hchange
    cases hchange with
    | reference hat hkind hname hvisited hbound =>
      subst hposition
      rw [visited_cons_iff hchild hinner] at hvisited
      rw [boundAt_cons_iff hchild hinner] at hbound
      rw [Value.at?_cons, hchild, Option.bind_some] at hat
      exact .inr ⟨hvisited.1, .reference hat hkind hname hvisited.2 hbound⟩
    | @argument position module hrequires hvisited =>
      cases position with
      | nil =>
        simp only [List.nil_append, List.cons.injEq] at hposition
        exact .inl ⟨hposition.1, hposition.2, module, hrequires, rfl⟩
      | cons first inside =>
        simp only [List.cons_append, List.cons.injEq] at hposition
        obtain ⟨rfl, rfl⟩ := hposition
        rw [visited_cons_iff hchild hinner] at hvisited
        rw [requiresAt_cons_iff hchild hinner] at hrequires
        exact .inr ⟨hvisited.1, .argument hrequires hvisited.2⟩
  · rintro (⟨rfl, rfl, module, hrequires, rfl⟩ | ⟨henters, hchange⟩)
    · exact .argument hrequires visited_nil
    · cases hchange with
      | reference hat hkind hname hvisited hbound =>
        refine .reference ?_ hkind hname ((visited_cons_iff hchild hinner).2
          ⟨henters, hvisited⟩) ((boundAt_cons_iff hchild hinner).2 hbound)
        rw [Value.at?_cons, hchild, Option.bind_some, hat]
      | argument hrequires hvisited =>
        exact .argument ((requiresAt_cons_iff hchild hinner).2 hrequires)
          ((visited_cons_iff hchild hinner).2 ⟨henters, hvisited⟩)

end Renaming

end Debundle
