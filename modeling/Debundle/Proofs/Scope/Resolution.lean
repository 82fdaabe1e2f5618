import Debundle.Module.Role
import Debundle.Proofs.Scope.Binding

/-!
# What a reference denotes

A reference is an identifier that stands for a variable, not one that makes a variable or
spells the name of a property, a label or a function.  It denotes the variable of the
innermost scope around it that binds its name.  The scopes are functions, with their
parameters and the declarations in their bodies, and `catch` clauses with their
parameters.  The parameters of a module function are told apart from these inner scopes:
a reference that no inner scope binds denotes one of them, if they have its name.
-/

namespace Debundle

/-- The field of a function or a `catch` clause that holds its parameters. -/
def Kind.paramField? : Kind → Option String
  | .functionExpression | .functionDeclaration | .arrowFunctionExpression => some "params"
  | .catchClause => some "param"
  | _ => none

namespace Value

def isArray : Value → Bool
  | .array _ => true
  | _ => false

/-- Whether the parameters of a function or a `catch` clause bind the name. -/
def bindsParam (name : String) (value : Value) : Bool :=
  value.kind.paramField?.any fun key => (value.lookup key).any (binds name)

end Value

namespace Edge

/-- The edge leads into parameters. -/
def leadsToParam (edge : Edge) : Bool :=
  edge.parent.kind.paramField?.any fun key => edge.step = .field key

/-- The edge leads into the body of a function in which the name is declared. -/
def hoists (name : String) (edge : Edge) : Bool :=
  edge.parent.kind.isFunction && edge.step = .field "body" &&
    (edge.parent.lookup "body").any (Value.hoists name)

/-- The parent of the edge binds the name for what the edge leads to. -/
def binds (name : String) (edge : Edge) : Bool :=
  edge.parent.bindsParam name || edge.hoists name

end Edge

namespace Value

/-- The position above the innermost edge of a way that passes a test.  The first edge
has a test of its own. -/
def innermost (first later : Edge → Bool) : Value → Position → Option Position
  | _, [] => none
  | value, step :: rest =>
    match (value.child? step).bind fun child => innermost later later child rest with
    | some below => some (step :: below)
    | none => if first ⟨value, step⟩ then some [] else none

/-- Where the name is bound that stands at a position of a module function: at a function
or a `catch` clause inside it, or by a declaration in its own body.  There is no such
place for a name that is a parameter of the module function, or bound nowhere. -/
def home (module : Value) (position : Position) (name : String) : Option Position :=
  module.innermost (Edge.hoists name) (Edge.binds name) position

/-- A function body declares the name, or a scope inside the body binds it for what stands
at the position. -/
def BindsFor (body : Value) (position : Position) (name : String) : Prop :=
  body.hoists name = true ∨
    ∃ above edge, body.Crosses position above edge ∧ edge.binds name = true

end Value

/-- What an identifier is there for. -/
inductive Usage where
  | reference
  /-- It makes a variable. -/
  | binding
  /-- It spells the name of a property, a label, a function or a class. -/
  | naming
  deriving DecidableEq

/-- What identifiers are there for behind an edge, if they are there for `outer` in front
of it. -/
def Edge.usage (edge : Edge) (outer : Usage) : Usage :=
  match outer, edge.step with
  | .naming, _ => .naming
  | outer, .item _ => outer
  | outer, .field key =>
    match edge.parent.kind with
    | .identifier | .metaProperty => .naming
    | .functionExpression | .functionDeclaration | .arrowFunctionExpression =>
      if key = "params" then .binding else if key = "id" then .naming else outer
    | .classExpression | .classDeclaration => if key = "id" then .naming else outer
    | .catchClause => if key = "param" then .binding else outer
    | .variableDeclarator => if key = "id" then .binding else outer
    | .assignmentPattern => if key = "right" then .reference else outer
    | .memberExpression =>
      if key ≠ "property" then outer
      else if edge.parent.flag "computed" then .reference else .naming
    | .property | .methodDefinition =>
      if key ≠ "key" then outer
      else if edge.parent.flag "computed" then .reference else .naming
    | .labeledStatement | .breakStatement | .continueStatement =>
      if key = "label" then .naming else outer
    | _ => outer

namespace Value

/-- What an identifier at a position is there for. -/
def usageAt : Value → Usage → Position → Usage
  | _, usage, [] => usage
  | value, usage, step :: rest =>
    match value.child? step with
    | some child => child.usageAt (Edge.usage ⟨value, step⟩ usage) rest
    | none => .naming

/-- A reference of this name stands at the position. -/
def RefersAt (root : Value) (position : Position) (name : String) : Prop :=
  root.Names position name ∧ root.usageAt .reference position = .reference

/-- The role of the parameter of a module function that has this name.  Of two parameters
of one name the later counts. -/
def roleOf? (module : Value) (name : String) : Option Role :=
  match module.lookup "params" with
  | some (.array params) =>
    ((Role.all.zip params).reverse.find? fun entry =>
      entry.2.kind = .identifier && entry.2.binds name).map Prod.fst
  | _ => none

variable {first later : Edge → Bool} {root child : Value} {step : Step}
  {rest position : Position}

theorem innermost_cons :
    (root.innermost first later (step :: rest)).isSome = true ↔
      first ⟨root, step⟩ = true ∨ ∃ child, root.child? step = some child ∧
        (child.innermost later later rest).isSome = true := by
  rw [innermost]
  cases hinner : (root.child? step).bind fun child => child.innermost later later rest with
  | some below =>
    obtain ⟨child, hchild, hbelow⟩ := Option.bind_eq_some_iff.1 hinner
    simp [hchild, hbelow]
  | none =>
    have hnone : ¬ ∃ child, root.child? step = some child ∧
        (child.innermost later later rest).isSome = true := by
      rintro ⟨child, hchild, hsome⟩
      rw [hchild, Option.bind_some] at hinner
      simp [hinner] at hsome
    by_cases hfirst : first ⟨root, step⟩ <;> simp [hfirst, hnone]

/-- Some edge of a way passes a test exactly if the innermost one is found. -/
theorem innermost_isSome_iff {test : Edge → Bool} :
    (root.innermost test test position).isSome = true ↔
      ∃ above edge, root.Crosses position above edge ∧ test edge = true := by
  induction position generalizing root with
  | nil => simp [innermost, not_crosses_nil]
  | cons step rest ih =>
    rw [innermost_cons]
    constructor
    · rintro (htest | ⟨child, hchild, hsome⟩)
      · exact ⟨[], ⟨root, step⟩, crosses_cons_iff.2 (.inl ⟨rfl, rfl⟩), htest⟩
      · obtain ⟨above, edge, hcross, htest⟩ := ih.1 hsome
        exact ⟨step :: above, edge,
          crosses_cons_iff.2 (.inr ⟨child, above, hchild, rfl, hcross⟩), htest⟩
    · rintro ⟨above, edge, hcross, htest⟩
      rcases crosses_cons_iff.1 hcross with ⟨-, rfl⟩ | ⟨child, below, hchild, -, hbelow⟩
      · exact .inl htest
      · exact .inr ⟨child, hchild, ih.2 ⟨below, edge, hbelow, htest⟩⟩

theorem usageAt_cons (hchild : root.child? step = some child) (usage : Usage) :
    root.usageAt usage (step :: rest) =
      child.usageAt (Edge.usage ⟨root, step⟩ usage) rest := by
  rw [usageAt, hchild]

theorem usageAt_naming (root : Value) (position : Position) :
    root.usageAt .naming position = .naming := by
  induction position generalizing root with
  | nil => rfl
  | cons step rest ih =>
    rw [usageAt]
    cases root.child? step with
    | none => rfl
    | some child => exact ih child

end Value

end Debundle
