import Debundle.Proofs.Rename.Step
import Debundle.Proofs.Scope.Names
import Debundle.Proofs.Script.Limits

/-!
# Renamings return

A renaming of a well-formed script returns.  There is one exception, which no grammar can
exclude: the argument of a `require` call may be a numeral with more digits than can be
read.
-/

namespace Debundle

open Kind Renaming

variable {allowed : Fault → Prop}

namespace RequireCall

variable {roles : Roles} {root literal : Value} {position : Position}
  (hcall : RequireCall roles root position literal)

include hcall

theorem arguments_at : root.at? (position ++ [.field "arguments"]) = some (.array [literal]) := by
  obtain ⟨call, callee, hat, hwith, -⟩ := hcall
  rw [Value.at?_append, hat]
  cases call with
  | node tag fields => simpa using hwith.arguments
  | _ => cases hwith.kind

theorem literal_at : root.at? (position ++ [.field "arguments"] ++ [.item 0]) = some literal := by
  rw [Value.at?_append, hcall.arguments_at]
  rfl

theorem literal_kind : literal.kind = .literal := by
  obtain ⟨call, callee, -, hwith, -⟩ := hcall
  exact hwith.literal

end RequireCall

/-- Reading the argument of a call of `require` inside a value fails only as allowed. -/
def Roles.Allows (roles : Roles) (allowed : Fault → Prop) (value : Value) : Prop :=
  ∀ position literal fault, RequireCall roles value position literal →
    moduleIndex literal.constant = .error fault → allowed fault

variable {roles : Roles} {value : Value} {step : Except Fault (List Value)} {test : String → Bool}

theorem Roles.Allows.child {inner : Roles} {part : Value} {step : Step}
    (hallows : roles.Allows allowed value) (hpart : value.child? step = some part)
    (hinner : HoldInside roles value inner) : inner.Allows allowed part :=
  fun position literal fault hcall =>
    hallows (step :: position) literal fault ((requireCall_cons_iff hpart hinner).2 hcall)

theorem Value.Allows.calls (hallows : value.Allows moduleIndex allowed) (roles : Roles) :
    roles.Allows allowed value :=
  fun _ literal fault hcall => hallows _ literal fault hcall.literal_at hcall.literal_kind

/-- Roles can be taken from the names that are found. -/
theorem Finds.exists_without (hfinds : Finds step test) (roles : Roles) :
    ∃ names inner, step = .ok names ∧ roles.without names = .ok inner := by
  obtain ⟨texts, hstep, -⟩ := hfinds
  have hkeys : (texts.map Value.text).mapM (Value.asKey .fixed) =
      .ok (texts.map Value.text) := by
    rw [Attempt.mapM_eq_ok_iff, List.forall₂_same]
    intro key hkey
    obtain ⟨text, -, rfl⟩ := List.mem_map.1 hkey
    rfl
  have hinner : ∃ inner, roles.without (texts.map Value.text) = .ok inner := by
    rw [Roles.without, hkeys]
    exact ⟨_, rfl⟩
  obtain ⟨inner, hinner⟩ := hinner
  exact ⟨_, inner, hstep, hinner⟩

theorem Finds.returns_without {α : Type} {next : Roles → Except Fault α} (hfinds : Finds step test)
    (hnext : ∀ names inner, step = .ok names → roles.without names = .ok inner →
      ReturnsOr allowed (next inner)) : ReturnsOr allowed (do next (← roles.without (← step))) := by
  obtain ⟨names, inner, hstep, hinner⟩ := hfinds.exists_without roles
  refine ReturnsOr.bind (.inl ⟨names, hstep⟩) fun found hfound => ?_
  cases hstep.symm.trans hfound
  exact ReturnsOr.bind (.inl ⟨inner, hinner⟩) (hnext names · hstep)

namespace Plan

variable {registry : Registry} {roles : Roles} {tag : String} {fields : Fields} {slot : Slot}

theorem requireArgument?_returns (hfills : (Value.node tag fields).fills slot = true)
    (hkind : Kind.ofTag tag = .callExpression) :
    ReturnsOr allowed (requireArgument? roles (.node tag fields)) := by
  obtain ⟨arguments, hget, harguments⟩ := Value.exists_field hfills hkind
    (show Kind.slot .callExpression "arguments" = .many (.spreadElement :: expressions)
      from rfl) rfl
  obtain ⟨items, rfl, -⟩ := Value.exists_items_of_fills harguments rfl (by simp)
  simp only [requireArgument?, Value.lookup_node, hget]
  split
  · exact .ok _
  split
  · exact .ok _
  rename_i arguments hfilter
  obtain ⟨hsome, htruthy⟩ := Option.filter_eq_some_iff.1 hfilter
  cases hsome
  cases items with
  | nil => cases htruthy
  | cons item rest =>
    refine ReturnsOr.bind (.ok _) fun count _ => ?_
    split
    · exact .ok _
    · refine ReturnsOr.bind (.ok item) fun argument _ => ?_
      split <;> exact .ok _

theorem ofCall_returns (hfills : (Value.node tag fields).fills slot = true)
    (hallows : roles.Allows allowed (.node tag fields))
    (hkind : Kind.ofTag tag = .callExpression) :
    ReturnsOr allowed (ofCall registry roles (.node tag fields)) := by
  refine (requireArgument?_returns hfills hkind).bind fun argument hargument => ?_
  cases argument with
  | none => exact .ok _
  | some id =>
    obtain ⟨callee, name, literal, hcallee, hidentifier, hname, hrole, harguments, hliteral,
      rfl⟩ := requireArgument?_eq_some hargument
    have hcall : RequireCall roles (.node tag fields) [] literal :=
      ⟨_, name, rfl, ⟨hkind, ⟨callee, hcallee, hidentifier, hname⟩, harguments, hliteral⟩,
        boundAt_nil_iff.2 hrole⟩
    have hindex : ReturnsOr allowed (moduleIndex literal.constant) :=
      .of_error fun fault => hallows [] literal fault hcall
    refine (hindex.bind fun index _ => .ok _ : ReturnsOr allowed (registry.resolve _)).bind ?_
    intro name _
    cases name <;> exact .ok _

/-- What happens at a well-formed node can be planned. -/
theorem ofNode_returns (hfills : (Value.node tag fields).fills slot = true)
    (hallows : roles.Allows allowed (.node tag fields)) :
    ReturnsOr allowed (ofNode registry roles (.node tag fields)) := by
  cases hkind : Kind.ofTag tag with
  | identifier =>
    simp only [ofNode, Value.kind, hkind]
    split <;> exact .ok _
  | callExpression =>
    simp only [ofNode, Value.kind, hkind]
    exact ofCall_returns hfills hallows hkind
  | functionExpression | functionDeclaration | arrowFunctionExpression =>
    simp only [ofNode, Value.kind, hkind]
    refine (Value.paramNames_finds hfills (by rw [hkind]; rfl)).returns_without ?_
    exact fun _ _ _ _ => .ok _
  | catchClause =>
    simp only [ofNode, Value.kind, hkind]
    refine Finds.returns_without (Value.boundNamesAt_finds fun pattern hpattern => ?_)
      fun _ _ _ _ => .ok _
    have hparam := Value.fills_field hfills hpattern
    rw [hkind] at hparam
    exact Value.fills_optional_of_subset (List.subset_append_right _ _) (.inl hparam)
  | memberExpression =>
    simp only [ofNode, Value.kind, hkind]
    split <;> exact .ok _
  | _ =>
    simp only [ofNode, Value.kind, hkind]
    exact .ok _

end Plan

namespace Value

variable {registry : Registry} {roles : Roles} {slot : Slot} {items : List Value}
  {enters : String → Bool} {arguments : Option Value} {key : String} {value : Value}
  {fields : Fields}

theorem renameItems_of_kept
    (hitems : ∀ item ∈ items, item.rename registry roles = .ok (.kept, {})) :
    rename.renameItems registry roles items = .ok (.kept, {}) := by
  induction items with
  | nil => rfl
  | cons item rest ih =>
    rw [rename.renameItems, hitems item List.mem_cons_self,
      ih fun other hother => hitems other (List.mem_cons_of_mem _ hother)]
    rfl

/-- A value without nodes is kept. -/
theorem rename_bare (value : Value) {slot : Slot} (hbare : slot.kinds = [])
    (hfills : value.fills slot = true) (roles : Roles) :
    value.rename registry roles = .ok (.kept, {}) := by
  cases value with
  | node tag fields =>
    have hkind := Slot.mem_kinds_of_admits (fills_node_iff.1 hfills).1
    simp [hbare] at hkind
  | array items =>
    rw [rename]
    split
    · rfl
    obtain ⟨names, inner, hnames, hinner⟩ := (hoistedNames_finds _ hfills).exists_without roles
    obtain ⟨held, hheld, hitems⟩ := fills_array_iff.1 hfills
    have hkept : rename.renameItems registry inner items = .ok (.kept, {}) := by
      refine renameItems_of_kept fun item hitem => ?_
      have hsmaller := size_lt_of_mem_array hitem
      exact rename_bare item (Slot.kinds_of_items? hheld ▸ hbare) (hitems item hitem) inner
    simp only [hnames, hinner, hkept, bind, Except.bind]
    rfl
  | _ => rfl
termination_by value.size

theorem renameField_of_kept (hnone : (arguments.filter fun _ => key == "arguments") = none)
    (hkept : value.rename registry roles = .ok (.kept, {})) :
    renameField registry roles enters arguments key value = .ok (.kept, {}) := by
  rw [renameField, hnone, hkept]
  cases enters key <;> rfl

theorem renameFields_of_kept
    (hfields : ∀ entry ∈ fields, entry.2.rename registry roles = .ok (.kept, {})) :
    rename.renameFields registry roles enters none fields = .ok (.kept, {}) := by
  induction fields with
  | nil => rfl
  | cons entry rest ih =>
    obtain ⟨key, value⟩ := entry
    have hcons : Edit.consField .kept .kept key value rest = .ok .kept := by
      simp [Edit.consField, Edit.isKept, Edit.map, Edit.cons]
    rw [renameFields_cons, renameField_of_kept rfl (hfields (key, value) List.mem_cons_self),
      ih fun other hother => hfields other (List.mem_cons_of_mem _ hother)]
    simp only [bind, Except.bind, hcons]
    rfl

/-- A literal is kept, with all that it holds. -/
theorem rename_literal {tag : String} (hfills : (Value.node tag fields).fills slot = true)
    (hkind : Kind.ofTag tag = .literal) :
    (Value.node tag fields).rename registry roles = .ok (.kept, {}) := by
  have hfields : rename.renameFields registry roles (allBut "params") none fields =
      .ok (.kept, {}) := by
    refine renameFields_of_kept fun entry hmem => ?_
    have hplain := (fills_node_iff.1 hfills).2.2 entry hmem
    rw [hkind] at hplain
    exact rename_bare entry.2 rfl hplain roles
  rw [rename]
  split
  · rfl
  · simp only [Plan.ofNode, kind, hkind, hfields, bind, Except.bind]
    rfl

theorem RenamesTo.eq_of_literal {before after : Value}
    (hrename : RenamesTo registry roles before after)
    (hfills : before.fills slot = true) (hkind : before.kind = .literal) : after = before := by
  cases before with
  | node tag fields =>
    obtain ⟨edit, tally, hrename, rfl⟩ := hrename
    rw [rename_literal hfills hkind] at hrename
    cases hrename
    rfl
  | _ => simp [kind] at hkind

theorem renameItems_returns
    (hitems : ∀ item ∈ items, ReturnsOr allowed (item.rename registry roles)) :
    ReturnsOr allowed (rename.renameItems registry roles items) := by
  induction items with
  | nil => exact .ok _
  | cons item rest ih =>
    rw [rename.renameItems]
    refine (hitems item List.mem_cons_self).bind fun head _ => ?_
    refine (ih fun other hother => hitems other (List.mem_cons_of_mem _ hother)).bind ?_
    exact fun tail _ => .ok _

theorem renameField_returns (hvalue : ReturnsOr allowed (value.rename registry roles)) :
    ReturnsOr allowed (renameField registry roles enters arguments key value) := by
  rw [renameField]
  split
  · exact .ok _
  · split
    · exact hvalue
    · exact .ok _

/-- Fields can be renamed if their values can.  A field of the reserved name can only be
put back if its value is kept. -/
theorem renameFields_returns
    (hfields : ∀ entry ∈ fields, ReturnsOr allowed (entry.2.rename registry roles))
    (hreserved : ∀ entry ∈ fields, entry.1 = reservedKey →
      entry.2.rename registry roles = .ok (.kept, {})) :
    ReturnsOr allowed (rename.renameFields registry roles enters arguments fields) := by
  induction fields with
  | nil => exact .ok _
  | cons entry rest ih =>
    obtain ⟨key, value⟩ := entry
    have hrest := ih (fun other hother => hfields other (List.mem_cons_of_mem _ hother))
      fun other hother => hreserved other (List.mem_cons_of_mem _ hother)
    rw [renameFields_cons]
    refine (renameField_returns (hfields _ List.mem_cons_self)).bind fun head hhead => ?_
    refine hrest.bind fun tail _ => ?_
    refine ReturnsOr.bind ?_ fun _ _ => .ok _
    rw [Edit.consField, if_neg]
    · exact .ok _
    · rintro ⟨rfl, hchanged⟩
      have hnone : (arguments.filter fun _ => reservedKey == "arguments") = none := by
        cases arguments <;> rfl
      rw [renameField_of_kept hnone (hreserved _ List.mem_cons_self rfl)] at hhead
      cases hhead
      cases hchanged

theorem slot_reserved (kind : Kind) : kind.slot reservedKey = .plain := by
  cases kind <;> rfl

/-- A renaming of a well-formed value returns. -/
theorem rename_returns (value : Value) {slot : Slot} (hfills : value.fills slot = true)
    (roles : Roles) (hallows : roles.Allows allowed value) :
    ReturnsOr allowed (value.rename registry roles) := by
  cases value with
  | array items =>
    rw [rename]
    split
    · exact .ok _
    refine (hoistedNames_finds _ hfills).returns_without fun names inner hnames hinner => ?_
    obtain ⟨held, -, hitems⟩ := fills_array_iff.1 hfills
    refine (renameItems_returns fun item hitem => ?_).bind fun _ _ => .ok _
    have hsmaller := size_lt_of_mem_array hitem
    obtain ⟨index, hindex⟩ := List.mem_iff_getElem?.1 hitem
    have hchild : (Value.array items).child? (.item index) = some item := hindex
    exact rename_returns item (hitems item hitem) inner
      (hallows.child hchild (.of_scopeNames hnames hinner))
  | node tag fields =>
    rw [rename]
    split
    · exact .ok _
    refine (Plan.ofNode_returns hfills hallows).bind fun plan hplan => ?_
    cases plan with
    | keep => exact .ok _
    | refer role => exact .ok _
    | enter inner enters arguments own =>
      refine (renameFields_returns ?_ ?_).bind fun _ _ => .ok _
      · intro entry hmem
        have hget := (mem_fields_iff hfills).1 hmem
        have hsmaller : entry.2.size < (Value.node tag fields).size := size_lt_of_lookup hget
        have hchild : (Value.node tag fields).child? (.field entry.1) = some entry.2 := hget
        exact rename_returns entry.2 (fills_field hfills hget) inner
          (hallows.child hchild (Plan.ofNode_eq_enter hplan).inside)
      · intro entry hmem hkey
        have hplain := (fills_node_iff.1 hfills).2.2 entry hmem
        rw [hkey, slot_reserved] at hplain
        exact rename_bare entry.2 rfl hplain inner
  | _ => exact .ok _
termination_by value.size

end Value

end Debundle
