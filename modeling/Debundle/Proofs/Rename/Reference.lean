import Debundle.Proofs.Rename.Positions
import Debundle.Proofs.Scope.Names
import Debundle.Proofs.Scope.Resolution

/-!
# The rule at references

On a well-formed script the rule of the renaming can be compared with what a reference
denotes.  A name loses its role at the parameters that bind it and at every array in which
it is declared, be it in a function inside the array.  The fields that are skipped on the
way to a reference are parameters.
-/

namespace Debundle

open Renaming Kind

theorem Finds.drops_iff {name : String} {value : Value} {test : String → Bool}
    (hfinds : Finds value.scopeNames test) : value.Drops name ↔ test name = true := by
  obtain ⟨names, hnames, htest⟩ := hfinds
  rw [← htest, Value.Drops]
  constructor
  · rintro ⟨others, hothers, hmem⟩
    cases hnames.symm.trans hothers
    simpa using hmem
  · exact fun hmem => ⟨_, hnames, by simpa using hmem⟩

namespace Value

variable {name tag key : String} {value root child : Value} {fields : Fields} {slot : Slot}
  {position : Position}

theorem scopeNames_finds (hfills : value.fills slot = true) :
    Finds value.scopeNames fun name =>
      value.bindsParam name || value.isArray && value.declares name := by
  cases value with
  | array items => exact hoistedNames_finds _ hfills
  | node tag fields =>
    cases hkind : Kind.ofTag tag with
    | functionExpression | functionDeclaration | arrowFunctionExpression =>
      simp only [scopeNames, hkind]
      refine (paramNames_finds hfills (by rw [hkind]; rfl)).congr fun name => ?_
      simp [bindsParam, isArray, kind, hkind, paramField?]
    | catchClause =>
      simp only [scopeNames, hkind]
      refine (boundNamesAt_finds fun pattern hpattern => ?_).congr fun name => ?_
      · have hparam := fills_field hfills hpattern
        rw [hkind] at hparam
        exact fills_optional_of_subset (List.subset_append_right _ _) (.inl hparam)
      · simp [bindsParam, isArray, kind, hkind, paramField?]
    | _ =>
      simp only [scopeNames, hkind]
      refine Finds.nothing.congr fun name => ?_
      simp [bindsParam, isArray, kind, hkind, paramField?]
  | _ => exact Finds.nothing

/-- A well-formed value takes the roles from the names of its parameters, and an array
from all names that are declared in it. -/
theorem drops_iff (hfills : value.fills slot = true) :
    value.Drops name ↔
      value.bindsParam name = true ∨ value.isArray = true ∧ value.declares name = true := by
  rw [(scopeNames_finds hfills).drops_iff, Bool.or_eq_true, Bool.and_eq_true]

theorem slot_params_cases (kind : Kind) :
    kind.slot "params" = .plain ∨ kind.paramField? = some "params" := by
  cases kind with
  | functionExpression | functionDeclaration | arrowFunctionExpression => exact .inr rfl
  | _ => exact .inl rfl

/-- What stands in a field that is skipped is no reference, or there are no nodes in it, or
it is a parameter. -/
theorem usage_of_skips (usage : Usage) (hskips : (Value.node tag fields).skips key = true) :
    Edge.usage ⟨.node tag fields, .field key⟩ usage = .naming ∨
      (Kind.ofTag tag).slot key = .plain ∨
      Edge.leadsToParam ⟨.node tag fields, .field key⟩ = true := by
  have hparams : key = "params" → (Kind.ofTag tag).slot key = .plain ∨
      Edge.leadsToParam ⟨.node tag fields, .field key⟩ = true := by
    rintro rfl
    rcases slot_params_cases (Kind.ofTag tag) with hplain | hfield
    · exact .inl hplain
    · exact .inr (by simp [Edge.leadsToParam, kind, hfield])
  by_cases hnaming : usage = .naming
  · subst hnaming
    exact .inl rfl
  cases hkind : Kind.ofTag tag with
  | identifier | metaProperty => simp [Edge.usage, kind, hkind]
  | catchClause =>
    simp only [skips, kind, hkind, beq_iff_eq] at hskips
    simp [Edge.leadsToParam, kind, hkind, paramField?, hskips]
  | memberExpression =>
    simp only [skips, kind, hkind] at hskips
    split at hskips
    · rw [← hkind]
      exact .inr (hparams (beq_iff_eq.1 hskips))
    · rename_i hcomputed
      simp [Edge.usage, kind, hkind, beq_iff_eq.1 hskips, hcomputed]
  | property | methodDefinition =>
    have hnode : (Value.node tag fields).kind = _ := hkind
    simp only [skips, hnode] at hskips
    by_cases hcomputed : (Value.node tag fields).flag "computed" = true
    · rw [if_pos hcomputed] at hskips
      rw [← hkind]
      exact .inr (hparams (beq_iff_eq.1 hskips))
    rw [if_neg hcomputed] at hskips
    by_cases hkey : key = "key"
    · simp [Edge.usage, kind, hkind, hkey, hcomputed]
    · split at hskips
      · have hvalue := beq_false_of_ne (bne_iff_ne.1 hskips)
        simp [slot, slots, List.lookup_cons, beq_false_of_ne hkey, hvalue]
      · exact absurd (beq_iff_eq.1 hskips) hkey
  | labeledStatement | breakStatement | continueStatement =>
    simp only [skips, kind, hkind, beq_iff_eq] at hskips
    simp [Edge.usage, kind, hkind, hskips]
  | _ =>
    simp only [skips, kind, hkind, beq_iff_eq] at hskips
    rw [← hkind]
    exact .inr (hparams hskips)

theorem isSkipped_of_leadsToParam {edge : Edge} (hleads : edge.leadsToParam = true) :
    edge.isSkipped = true := by
  obtain ⟨parent, step⟩ := edge
  rw [Edge.leadsToParam, Option.any_eq_true] at hleads
  obtain ⟨key, hfield, hstep⟩ := hleads
  obtain rfl : step = .field key := of_decide_eq_true hstep
  cases hkind : parent.kind with
  | functionExpression | functionDeclaration | arrowFunctionExpression | catchClause =>
    rw [hkind] at hfield
    cases hfield
    simp [Edge.isSkipped, skips, hkind]
  | _ =>
    rw [hkind] at hfield
    cases hfield

/-- The fields that are skipped on the way to a reference are parameters. -/
theorem leadsToParam_of_isSkipped {step : Step} {rest : Position} {usage : Usage}
    (hfills : root.fills slot = true) (hchild : root.child? step = some child)
    (hname : child.Names rest name)
    (husage : child.usageAt (Edge.usage ⟨root, step⟩ usage) rest = .reference)
    (hskipped : Edge.isSkipped ⟨root, step⟩ = true) :
    Edge.leadsToParam ⟨root, step⟩ = true := by
  obtain ⟨node, hat, hkind, -⟩ := hname
  cases root with
  | node tag fields =>
    cases step with
    | item index => simp [child?] at hchild
    | field key =>
      rcases usage_of_skips usage hskipped with hnaming | hplain | hleads
      · rw [hnaming, usageAt_naming] at husage
        cases husage
      · have hbare := hplain ▸ fills_field hfills hchild
        cases hkind.symm.trans (kind_of_fills_bare rfl hbare hat)
      · exact hleads
  | array items => cases step <;> simp [Edge.isSkipped, child?] at hskipped hchild
  | _ => simp [child?] at hchild

end Value

namespace Renaming

variable {registry : Registry} {roles : Roles} {root node value : Value} {slot : Slot}
  {position above : Position}

/-- What is changed where a name stands is the name, by the rule for references. -/
theorem Change.of_names {name : String} (hname : root.Names position name)
    (hchange : Change registry roles root position value) :
    Visited registry roles root position ∧ ∃ tag fields role, Kind.ofTag tag = .identifier ∧
      roles.BoundAt root position name role ∧
      value = .node tag (Fields.set fields "name" (.text role.word)) := by
  obtain ⟨node, hat, hkind, htext⟩ := hname
  cases hchange with
  | @reference position tag fields other role hreference hidentifier hother hvisited hbound =>
    cases hat.symm.trans hreference
    cases htext.symm.trans hother
    exact ⟨hvisited, tag, fields, role, hidentifier, hbound, rfl⟩
  | argument hrequires =>
    obtain ⟨literal, harguments, -⟩ := hrequires.arguments
    cases hat.symm.trans harguments
    cases hkind

/-- The only node in the argument of a call of `require` is a literal. -/
theorem RequiresAt.below_arguments {module : Value} {below : Position}
    (hfills : root.fills slot = true)
    (hrequires : RequiresAt registry roles root position module)
    (hat : root.at? (position ++ .field "arguments" :: below) = some node)
    (hnode : node.kind ≠ .unknown) :
    node.kind = .literal ∧ ∃ index, below = [.item index] := by
  obtain ⟨literal, harguments, hliteral⟩ := hrequires.arguments
  rw [List.append_cons, Value.at?_append, harguments, Option.bind_some] at hat
  obtain ⟨inner, hinner⟩ := Value.fills_at? hfills harguments
  obtain ⟨held, -, hitems⟩ := Value.fills_array_iff.1 hinner
  have hheld := hitems literal List.mem_cons_self
  cases below with
  | nil =>
    cases hat
    exact absurd rfl hnode
  | cons step rest =>
    cases step with
    | field key => simp [Value.child?] at hat
    | item index =>
      rw [Value.at?_cons, Value.child?_array, List.getElem?_singleton] at hat
      split at hat
      · rw [Option.bind_some] at hat
        cases rest with
        | nil =>
          cases hat
          exact ⟨hliteral, index, rfl⟩
        | cons step rest =>
          cases literal with
          | node tag fields =>
            refine absurd (Value.kind_of_below_bare hheld ?_ hat) hnode
            rw [show Kind.ofTag tag = _ from hliteral]
            decide
          | _ => simp [Value.kind] at hliteral
      · simp at hat

/-- Nothing is changed around a node of a well-formed script, unless the node is the
replaced argument of a call. -/
theorem Change.above_node (hfills : root.fills slot = true)
    (hat : root.at? position = some node) (hnode : node.kind ≠ .unknown)
    (hchange : Change registry roles root above value) (habove : above <+: position) :
    above = position ∨ ∃ call index module, node.kind = .literal ∧
      position = call ++ [.field "arguments", .item index] ∧
      RequiresAt registry roles root call module := by
  obtain ⟨below, rfl⟩ := habove
  cases hchange with
  | @reference above tag fields name role hreference hkind =>
    rw [Value.at?_append, hreference, Option.bind_some] at hat
    obtain ⟨inner, hinner⟩ := Value.fills_at? hfills hreference
    cases below with
    | nil => exact .inl (List.append_nil _).symm
    | cons step rest =>
      refine absurd (Value.kind_of_below_bare hinner ?_ hat) hnode
      rw [hkind]
      decide
  | @argument call module hrequires hvisited =>
    rw [← List.append_cons] at hat ⊢
    obtain ⟨hliteral, index, rfl⟩ := hrequires.below_arguments hfills hat hnode
    exact .inr ⟨call, index, module, hliteral, rfl, hrequires⟩

end Renaming

namespace Value

variable {name : String} {root value : Value} {slot : Slot} {position above : Position}

theorem Crosses.mono {edge : Edge} {inside : Position} (habove : above <+: position)
    (hcross : root.Crosses above inside edge) : root.Crosses position inside edge := by
  obtain ⟨below, rfl⟩ := habove
  obtain ⟨hat, rest, rfl⟩ := hcross
  exact ⟨hat, rest ++ below, by simp⟩

/-- A declaration counts for the function around it.  There is an edge into the body of
that function, unless the function lies outside of the tree. -/
theorem hoists_or_crosses (hfills : root.fills slot = true)
    (hat : root.at? position = some value) (hhoists : value.hoists name = true) :
    root.hoists name = true ∨
      ∃ above edge, root.Crosses position above edge ∧ edge.hoists name = true := by
  induction position generalizing root slot with
  | nil =>
    cases hat
    exact .inl hhoists
  | cons step rest ih =>
    obtain ⟨child, hchild, hrest⟩ := Option.bind_eq_some_iff.1 hat
    obtain ⟨inner, hinner⟩ := fills_child hfills hchild
    rcases ih hinner hrest with hhoists | ⟨above, edge, hcross, hedge⟩
    · rcases hoists_of_child hfills hchild hhoists with hroot | ⟨hfunction, rfl⟩
      · exact .inl hroot
      · refine .inr ⟨[], ⟨root, .field "body"⟩, crosses_cons_iff.2 (.inl ⟨rfl, rfl⟩), ?_⟩
        simp [Edge.hoists, hfunction, lookup_eq_child? hchild, hhoists]
    · exact .inr ⟨step :: above, edge,
        crosses_cons_iff.2 (.inr ⟨child, above, hchild, rfl, hcross⟩), hedge⟩

theorem Crosses.append {front : Position} {edge : Edge} (hat : root.at? front = some value)
    (hcross : value.Crosses position above edge) :
    root.Crosses (front ++ position) (front ++ above) edge := by
  obtain ⟨hedge, below, rfl⟩ := hcross
  exact ⟨by rw [at?_append, hat, Option.bind_some, hedge], below, by simp⟩

/-- In a function body, a name that the body declares is dropped on the way to every
identifier: only the statements of a block declare names, and they stand in an array. -/
theorem exists_drops_of_hoists {text : String}
    (hfills : value.fills (.one (.blockStatement :: expressions)) = true)
    (hhoists : value.hoists name = true) (hname : value.Names position text) :
    ∃ above edge, value.Crosses position above edge ∧ edge.parent.Drops name := by
  obtain ⟨node, hat, hkind, -⟩ := hname
  obtain ⟨tag, fields, rfl, -⟩ := exists_node_of_fills hfills
  have hblock : Kind.ofTag tag = .blockStatement :=
    (kind_of_body hfills).resolve_right (by simp [mayHoist_of_hoists hhoists])
  rw [hoists_block hblock, Option.any_eq_true] at hhoists
  obtain ⟨statements, hget, hhoists⟩ := hhoists
  have hstatements := fills_field hfills hget
  rw [hblock] at hstatements
  obtain ⟨items, rfl, -⟩ := exists_items_of_fills hstatements rfl (by simp [slot, slots])
  cases position with
  | nil =>
    cases hat
    cases hkind.symm.trans hblock
  | cons step rest =>
    obtain ⟨child, hchild, hrest⟩ := Option.bind_eq_some_iff.1 hat
    by_cases hstep : step = .field "body"
    · subst hstep
      cases hget.symm.trans hchild
      cases rest with
      | nil =>
        cases hrest
        cases hkind
      | cons step rest =>
        refine ⟨[.field "body"], ⟨.array items, step⟩, ⟨by simp [hget], rest, rfl⟩, ?_⟩
        rw [drops_iff hstatements, declares, hhoists]
        exact .inr ⟨rfl, rfl⟩
    · -- Nothing but the statements of a block has nodes in it.
      cases step with
      | item index => simp [child?] at hchild
      | field key =>
        have hplain : (Kind.ofTag tag).slot key = .plain := by
          have hkey : key ≠ "body" := fun heq => hstep (by rw [heq])
          rw [hblock]
          simp [slot, slots, List.lookup_cons, beq_false_of_ne hkey]
        have hbare := hplain ▸ fills_field hfills hchild
        cases hkind.symm.trans (kind_of_fills_bare rfl hbare hrest)

/-- A name that a function body or a scope inside it binds is dropped on the way to every
identifier that the binding counts for. -/
theorem exists_drops_of_binds {text : String}
    (hfills : root.fills (.one (.blockStatement :: expressions)) = true)
    (hname : root.Names position text)
    (hbinds : root.BindsFor position name) :
    ∃ above edge, root.Crosses position above edge ∧ edge.parent.Drops name := by
  rcases hbinds with hhoists | ⟨above, edge, hcross, hbinds⟩
  · exact exists_drops_of_hoists hfills hhoists hname
  obtain ⟨inner, hparent⟩ := fills_at? hfills hcross.1
  rcases Bool.or_eq_true_iff.1 hbinds with hparam | hhoists
  · exact ⟨above, edge, hcross, (drops_iff hparent).2 (.inl hparam)⟩
  · obtain ⟨parent, step⟩ := edge
    obtain ⟨hat, below, rfl⟩ := hcross
    simp only [Edge.hoists, Bool.and_eq_true, decide_eq_true_eq, Option.any_eq_true] at hhoists
    obtain ⟨⟨hfunction, rfl⟩, body, hbody, hhoists⟩ := hhoists
    cases parent with
    | node tag fields =>
      have hfront : root.at? (above ++ [.field "body"]) = some body := by
        simp [at?_append, hat, show Fields.get? fields "body" = _ from hbody]
      have hbelow : body.Names below text := by
        obtain ⟨node, hnode, hrest⟩ := hname
        rw [List.append_cons, at?_append, hfront, Option.bind_some] at hnode
        exact ⟨node, hnode, hrest⟩
      have hslot := slot_body hfunction ▸ fills_field hparent hbody
      obtain ⟨inside, edge, hcross, hdrops⟩ := exists_drops_of_hoists hslot hhoists hbelow
      refine ⟨above ++ [.field "body"] ++ inside, edge, ?_, hdrops⟩
      rw [List.append_cons]
      exact hcross.append hfront
    | _ => simp [kind, isFunction] at hfunction

/-- A name that is dropped on a way is bound there, or declared by a function inside an
array on the way. -/
theorem binds_of_drops {edge : Edge} (hfills : root.fills slot = true)
    (hcross : root.Crosses position above edge) (hdrops : edge.parent.Drops name) :
    root.BindsFor position name ∨
      edge.parent.isArray = true ∧ edge.parent.hoistsInside name = true := by
  obtain ⟨inner, hparent⟩ := fills_at? hfills hcross.1
  rcases (drops_iff hparent).1 hdrops with hparam | ⟨harray, hdeclares⟩
  · exact .inl (.inr ⟨above, edge, hcross, by rw [Edge.binds, hparam, Bool.true_or]⟩)
  rcases Bool.or_eq_true_iff.1 hdeclares with hhoists | hinside
  · left
    rcases hoists_or_crosses hfills hcross.1 hhoists with hroot | ⟨outer, other, hother, hedge⟩
    · exact .inl hroot
    · obtain ⟨-, below, rfl⟩ := hcross
      exact .inr ⟨outer, other, hother.mono (List.prefix_append _ _),
        by rw [Edge.binds, hedge, Bool.or_true]⟩
  · exact .inr ⟨harray, hinside⟩

/-- The edges that are skipped on the way to a reference are those into parameters. -/
theorem isSkipped_iff_of_reference {usage : Usage} {edge : Edge}
    (hfills : root.fills slot = true) (hname : root.Names position name)
    (husage : root.usageAt usage position = .reference)
    (hcross : root.Crosses position above edge) :
    edge.isSkipped = true ↔ edge.leadsToParam = true := by
  refine ⟨fun hskipped => ?_, isSkipped_of_leadsToParam⟩
  induction position generalizing root slot usage above with
  | nil => exact absurd hcross (not_crosses_nil _ _ _)
  | cons step rest ih =>
    obtain ⟨node, hat, hnode⟩ := hname
    obtain ⟨child, hchild, hrest⟩ := Option.bind_eq_some_iff.1 hat
    rw [usageAt_cons hchild] at husage
    obtain ⟨inner, hinner⟩ := fills_child hfills hchild
    rcases crosses_cons_iff.1 hcross with ⟨-, rfl⟩ | ⟨other, below, hother, -, hbelow⟩
    · exact leadsToParam_of_isSkipped hfills hchild ⟨node, hrest, hnode⟩ husage hskipped
    · cases hchild.symm.trans hother
      exact ih hinner ⟨node, hrest, hnode⟩ husage hbelow

end Value

end Debundle
