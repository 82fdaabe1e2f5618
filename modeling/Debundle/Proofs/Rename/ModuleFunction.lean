import Debundle.Proofs.Rename.Module
import Debundle.Proofs.Rename.Reference
import Debundle.Proofs.Rename.Totality

/-!
# Well-formed module functions

What a well-formed module function is made of, where its references stand, and which of
its parameters have which role.
-/

namespace Debundle

open Kind

namespace Value

variable {module body processed value : Value} {tag name key : String} {fields : Fields}
  {params : List Value} {position rest : Position}

/-- The body and the parameters of a well-formed module function. -/
structure HasParts (module : Value) (tag : String) (fields : Fields) (body : Value)
    (params : List Value) : Prop where
  node_eq : module = .node tag fields
  well_formed : (Value.node tag fields).fills
    (.one [.functionExpression, .arrowFunctionExpression]) = true
  kind_eq : Kind.ofTag tag = .functionExpression ∨ Kind.ofTag tag = .arrowFunctionExpression
  body_eq : Fields.get? fields "body" = some body
  body_fills : body.fills (.one (.blockStatement :: expressions)) = true
  params_eq : Fields.get? fields "params" = some (.array params)
  params_fill : ∀ param ∈ params, param.fills (.one targets) = true

theorem IsModuleFunction.exists_parts (hmodule : module.IsModuleFunction) :
    ∃ tag fields body params, module.HasParts tag fields body params := by
  obtain ⟨tag, fields, rfl, hmem⟩ := exists_node_of_fills hmodule
  have hkind := List.mem_pair.1 hmem
  have hfunction : (Kind.ofTag tag).isFunction = true := by
    rcases hkind with hkind | hkind <;> rw [hkind] <;> rfl
  obtain ⟨body, hbody, hbodyFills⟩ := exists_field hmodule rfl (slot_body hfunction) rfl
  obtain ⟨list, hlist, hlistFills⟩ := exists_field hmodule rfl (slot_params hfunction) rfl
  obtain ⟨params, rfl, hparams⟩ := exists_items_of_fills hlistFills rfl (by simp)
  exact ⟨tag, fields, body, params, rfl, hmodule, hkind, hbody, hbodyFills, hlist, hparams⟩

theorem edge_hoists_body (hfunction : (Kind.ofTag tag).isFunction = true)
    (hbody : Fields.get? fields "body" = some body) :
    Edge.hoists name ⟨.node tag fields, .field "body"⟩ = body.hoists name := by
  simp [Edge.hoists, Value.kind, hfunction, hbody]

namespace HasParts

variable (hparts : module.HasParts tag fields body params)

include hparts

theorem isFunction : (Kind.ofTag tag).isFunction = true := by
  rcases hparts.kind_eq with hkind | hkind <;> rw [hkind] <;> rfl

theorem isFunctionModule : (Value.node tag fields).isFunctionModule = true := by
  obtain ⟨inner, held, rfl, -⟩ := exists_node_of_fills hparts.body_fills
  obtain ⟨part, hpart, hvalue⟩ := exists_part (lookup_node tag fields "body" ▸ hparts.body_eq)
  have hgiven : ((Value.node tag fields).given? "body").isSome = true := by
    rw [given?, hpart, Option.filter_some, hvalue]
    rfl
  rw [Value.isFunctionModule, hgiven, Bool.and_true, isFunctionLiteral]
  rcases hparts.kind_eq with hkind | hkind <;> simp [Value.kind, hkind]

/-- A reference stands in the body or in the parameters. -/
theorem refersAt_cases (hreference : module.RefersAt position name) :
    (∃ rest, position = .field "body" :: rest ∧ body.RefersAt rest name) ∨
      ∃ rest, position = .field "params" :: rest := by
  obtain ⟨⟨node, hat, hkind, hname⟩, husage⟩ := hreference
  obtain rfl := hparts.node_eq
  cases position with
  | nil =>
    cases hat
    rcases hparts.kind_eq with hfunction | hfunction <;> cases hkind.symm.trans hfunction
  | cons step rest =>
    obtain ⟨child, hchild, hrest⟩ := Option.bind_eq_some_iff.1 hat
    rw [usageAt_cons hchild] at husage
    cases step with
    | item index => simp [child?] at hchild
    | field key =>
      by_cases hbody : key = "body"
      · subst hbody
        cases hparts.body_eq.symm.trans hchild
        refine .inl ⟨rest, rfl, ⟨node, hrest, hkind, hname⟩, ?_⟩
        rcases hparts.kind_eq with hfunction | hfunction <;>
          simpa [Edge.usage, Value.kind, hfunction] using husage
      by_cases hparams : key = "params"
      · exact .inr ⟨rest, by rw [hparams]⟩
      by_cases hid : key = "id"
      · have hnaming : Edge.usage ⟨.node tag fields, .field key⟩ .reference = .naming := by
          rcases hparts.kind_eq with hfunction | hfunction <;>
            simp [Edge.usage, Value.kind, hfunction, hid]
        rw [hnaming, usageAt_naming] at husage
        cases husage
      · have hplain : (Kind.ofTag tag).slot key = .plain := by
          rcases hparts.kind_eq with hfunction | hfunction <;>
            simp [hfunction, slot, slots, List.lookup_cons, beq_false_of_ne hbody,
              beq_false_of_ne hparams, beq_false_of_ne hid]
        have hbare := hplain ▸ fills_field hparts.well_formed hchild
        cases hkind.symm.trans (kind_of_fills_bare rfl hbare hrest)

/-- A name in the body of a module function is bound inside the function if the body
declares it or a scope on the way binds it. -/
theorem home_isSome_iff :
    (module.home (.field "body" :: rest) name).isSome = true ↔ body.BindsFor rest name := by
  obtain rfl := hparts.node_eq
  rw [home, innermost_cons, edge_hoists_body hparts.isFunction hparts.body_eq, child?_node,
    hparts.body_eq]
  simp [innermost_isSome_iff, BindsFor]

end HasParts

theorem at?_set_body (rest : Position) :
    (Value.node tag (Fields.set fields "body" processed)).at? (.field "body" :: rest) =
      processed.at? rest := by
  simp [Fields.get?_set]

theorem at?_set_other (hkey : key ≠ "body") (rest : Position) :
    (Value.node tag (Fields.set fields "body" processed)).at? (.field key :: rest) =
      (Value.node tag fields).at? (.field key :: rest) := by
  simp [Fields.get?_set, hkey]

end Value

namespace Roles

/-- The roles of well-formed parameters, entered one after the other. -/
theorem foldlM_params {pairs : List (Role × Value)}
    (hfills : ∀ pair ∈ pairs, pair.2.fills (.one targets) = true)
    (entries : List (Value × Role)) :
    ∃ result,
      pairs.foldlM (fun entries (role, param) => do
        if param.kind = .identifier then
          return Entries.put entries (← (← param.name).asKey .fixed) role
        return entries) entries = (.ok result : Except Fault (List (Value × Role))) ∧
      ∀ name, result.lookup (.text name) =
        ((pairs.reverse.find? fun entry =>
          entry.2.kind = .identifier && entry.2.binds name).map Prod.fst).or
          (entries.lookup (.text name)) := by
  induction pairs generalizing entries with
  | nil => exact ⟨entries, rfl, fun name => rfl⟩
  | cons pair rest ih =>
    obtain ⟨role, param⟩ := pair
    have hrest := ih fun pair hpair => hfills pair (List.mem_cons_of_mem _ hpair)
    obtain ⟨tag, fields, rfl, -⟩ := Value.exists_node_of_fills (hfills _ List.mem_cons_self)
    by_cases hkind : Kind.ofTag tag = .identifier
    · obtain ⟨text, htext⟩ := Value.exists_name (hfills _ List.mem_cons_self) hkind
      obtain ⟨result, hresult, hlookup⟩ := hrest (Entries.put entries (.text text) role)
      refine ⟨result, ?_, fun name => ?_⟩
      · rw [List.foldlM_cons, ← hresult]
        simp only [Value.kind, hkind,
          Value.name_eq_ok (Value.lookup_node tag fields "name" ▸ htext)]
        rfl
      · rw [hlookup, lookup_text_put, List.reverse_cons, List.find?_append, Option.map_or,
          Option.or_assoc]
        congr 1
        have hbinds : (Value.node tag fields).binds name = decide (name = text) := by
          rw [Bool.eq_iff_iff, Value.binds_identifier hkind, htext, Option.some.injEq,
            Value.text.injEq, decide_eq_true_eq, eq_comm]
        simp only [List.find?_singleton, Value.kind, hkind, hbinds, decide_true, Bool.true_and,
          decide_eq_true_eq]
        split <;> rfl
    · obtain ⟨result, hresult, hlookup⟩ := hrest entries
      refine ⟨result, ?_, fun name => ?_⟩
      · rw [List.foldlM_cons, ← hresult]
        simp only [Value.kind, hkind]
        rfl
      · rw [hlookup, List.reverse_cons, List.find?_append, Option.map_or, Option.or_assoc]
        simp [Value.kind, hkind]

end Roles

/-- A well-formed module function has roles for its parameters. -/
theorem Value.HasParts.exists_roles {module body : Value} {tag : String} {fields : Fields}
    {params : List Value} (hparts : module.HasParts tag fields body params) :
    ∃ parts roles, module.listAt "params" = .ok parts ∧
      Roles.ofParams (parts.map Part.value) = .ok roles ∧
      ∀ name, roles.role? name = module.roleOf? name := by
  obtain rfl := hparts.node_eq
  obtain ⟨parts, hlist, hvalues⟩ :=
    listAt_of_array (lookup_node tag fields "params" ▸ hparts.params_eq)
  have hfills : ∀ pair ∈ Role.all.zip params, pair.2.fills (.one targets) = true :=
    fun pair hpair => hparts.params_fill _ (List.of_mem_zip hpair).2
  obtain ⟨entries, hentries, hlookup⟩ := Roles.foldlM_params hfills []
  refine ⟨parts, ⟨entries⟩, hlist, ?_, fun name => ?_⟩
  · rw [hvalues, Roles.ofParams, hentries]
    rfl
  · rw [roleOf?, lookup_node, hparts.params_eq, Roles.role?, hlookup]
    simp

/-- A renaming of a well-formed module function fails only at a call of `require`. -/
theorem Value.HasParts.renameModule_returnsOr {module body : Value} {tag : String}
    {fields : Fields} {params : List Value} (hparts : module.HasParts tag fields body params)
    {allowed : Fault → Prop} (registry : Registry)
    (hallows : ∀ roles : Roles, (∀ name, roles.role? name = module.roleOf? name) →
      roles.Allows allowed body) :
    ReturnsOr allowed (renameModule registry module) := by
  obtain ⟨parts, roles, hlist, hroles, hrole⟩ := hparts.exists_roles
  have hbody : ReturnsOr allowed (body.rename registry roles) :=
    rename_returns body hparts.body_fills roles (hallows roles hrole)
  obtain rfl := hparts.node_eq
  simp only [renameModule, hparts.isFunctionModule, lookup_node, hparts.body_eq, hlist]
  refine ReturnsOr.bind (.ok parts) fun found hfound => ?_
  cases hfound
  refine ReturnsOr.bind (.inl ⟨roles, hroles⟩) fun inner hinner => ?_
  cases hroles.symm.trans hinner
  exact hbody.bind fun _ _ => .ok _

/-- A renamed module function has its body renamed with the roles of its parameters. -/
theorem Value.HasParts.renameModule_eq_ok {module body : Value} {tag : String}
    {fields : Fields} {params : List Value} (hparts : module.HasParts tag fields body params)
    {registry : Registry} {renamed : Renamed}
    (hrename : renameModule registry module = .ok renamed) :
    ∃ roles processed, (∀ name, roles.role? name = module.roleOf? name) ∧
      renamed.module.apply module = .node tag (Fields.set fields "body" processed) ∧
      body.RenamesTo registry roles processed := by
  obtain ⟨parts, roles, hlist, hroles, hrole⟩ := hparts.exists_roles
  obtain rfl := hparts.node_eq
  obtain ⟨others, inner, hothers, hinner, happly, hbody⟩ :=
    Debundle.renameModule_eq_ok hparts.isFunctionModule hparts.body_eq hrename
  cases hlist.symm.trans hothers
  cases hroles.symm.trans hinner
  exact ⟨roles, _, hrole, happly, hbody⟩

end Debundle
