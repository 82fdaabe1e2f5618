import Debundle.Proofs.Rename.Plan
import Debundle.Proofs.Tree.Related

/-!
# One step of a renaming

What a renaming does at a value, stated once: the value is kept, or it is a reference
that gets its role's name, or its children are renamed with the roles that hold inside.
Everything else that is known about renamings is derived from this step.
-/

namespace Debundle

open Attempt Renaming

namespace Edit

theorem apply_map {α β : Type} (edit : Edit α) (f : α → β) (old : α) :
    (edit.map f).apply (f old) = f (edit.apply old) := by
  cases edit <;> rfl

theorem apply_cons {α : Type} (head : Edit α) (tail : Edit (List α)) (old : α)
    (rest : List α) :
    (head.cons tail old rest).apply (old :: rest) = head.apply old :: tail.apply rest := by
  cases head <;> cases tail <;> rfl

theorem apply_consField {head : Edit Value} {tail result : Edit Fields} {key : String}
    {old : Value} {rest : Fields} (hresult : head.consField tail key old rest = .ok result) :
    result.apply ((key, old) :: rest) = (key, head.apply old) :: tail.apply rest := by
  simp only [consField] at hresult
  split at hresult
  · cases hresult
  · cases hresult
    rw [apply_cons]
    cases head <;> rfl

end Edit

namespace Value

/-- Renaming turns the value `before`, in which `roles` hold, into `after`. -/
def RenamesTo (registry : Registry) (roles : Roles) (before after : Value) : Prop :=
  ∃ edit tally, before.rename registry roles = .ok (edit, tally) ∧ edit.apply before = after

/-- What a renaming turns the value of the field `key` into. -/
def FieldRenamesTo (registry : Registry) (roles : Roles) (enters : String → Bool)
    (arguments : Option Value) (key : String) (before after : Value) : Prop :=
  match arguments.filter fun _ => key == "arguments" with
  | some replaced => after = replaced
  | none => if enters key then RenamesTo registry roles before after else after = before

/-- What a renaming does to the value of the field `key`. -/
def renameField (registry : Registry) (roles : Roles) (enters : String → Bool)
    (arguments : Option Value) (key : String) (value : Value) :
    Except Fault (Edit Value × Tally) :=
  match arguments.filter fun _ => key == "arguments" with
  | some replaced => .ok (.changed replaced, {})
  | none => if enters key then value.rename registry roles else .ok (.kept, {})

variable {registry : Registry} {roles : Roles} {before after : Value} {tally : Tally}
  {enters : String → Bool} {arguments : Option Value} {key : String} {value : Value}
  {edit : Edit Value}

theorem renameItems_eq_ok {items : List Value} {edit : Edit (List Value)}
    (hrename : rename.renameItems registry roles items = .ok (edit, tally)) :
    List.Forall₂ (RenamesTo registry roles) items (edit.apply items) := by
  induction items generalizing edit tally with
  | nil =>
    simp only [rename.renameItems, Except.ok.injEq, Prod.mk.injEq] at hrename
    obtain ⟨rfl, -⟩ := hrename
    exact .nil
  | cons item rest ih =>
    simp only [rename.renameItems, bind_eq_ok_iff, pure_eq_ok_iff, Prod.mk.injEq] at hrename
    obtain ⟨⟨head, here⟩, hhead, ⟨tail, below⟩, htail, rfl, -⟩ := hrename
    rw [Edit.apply_cons]
    exact .cons ⟨head, here, hhead, rfl⟩ (ih htail)

/-- The renaming of fields, first the first of them and then the others. -/
theorem renameFields_cons {rest : Fields} :
    rename.renameFields registry roles enters arguments ((key, value) :: rest) =
      renameField registry roles enters arguments key value >>= fun head =>
        rename.renameFields registry roles enters arguments rest >>= fun tail =>
          head.1.consField tail.1 key value rest >>= fun result =>
            pure (result, head.2 ++ tail.2) := by
  rw [rename.renameFields, renameField]
  cases arguments.filter fun _ => key == "arguments" with
  | some replaced => rfl
  | none =>
    cases enters key with
    | true => rfl
    | false => rfl

theorem renameField_eq_ok
    (hrename : renameField registry roles enters arguments key value = .ok (edit, tally)) :
    FieldRenamesTo registry roles enters arguments key value (edit.apply value) := by
  rw [renameField] at hrename
  rw [FieldRenamesTo]
  cases hreplaced : arguments.filter fun _ => key == "arguments" with
  | some replaced =>
    rw [hreplaced] at hrename
    cases hrename
    rfl
  | none =>
    rw [hreplaced] at hrename
    cases henters : enters key with
    | true => exact ⟨edit, tally, by simpa [henters] using hrename, rfl⟩
    | false =>
      simp only [henters, Bool.false_eq_true, if_false, Except.ok.injEq, Prod.mk.injEq] at hrename
      obtain ⟨rfl, -⟩ := hrename
      rfl

theorem renameFields_eq_ok {fields : Fields} {edit : Edit Fields}
    (hrename : rename.renameFields registry roles enters arguments fields = .ok (edit, tally)) :
    Fields.Related (FieldRenamesTo registry roles enters arguments) fields (edit.apply fields) := by
  induction fields generalizing edit tally with
  | nil =>
    simp only [rename.renameFields, Except.ok.injEq, Prod.mk.injEq] at hrename
    obtain ⟨rfl, -⟩ := hrename
    exact .nil
  | cons entry rest ih =>
    obtain ⟨key, value⟩ := entry
    simp only [renameFields_cons, bind_eq_ok_iff, pure_eq_ok_iff, Prod.mk.injEq] at hrename
    obtain ⟨⟨head, here⟩, hhead, ⟨tail, below⟩, htail, result, hresult, rfl, -⟩ := hrename
    rw [Edit.apply_consField hresult]
    exact .cons ⟨rfl, renameField_eq_ok hhead⟩ (ih htail)

/-- What one step of a renaming makes of a value. -/
inductive RenameStep (registry : Registry) (roles : Roles) : Value → Value → Prop where
  /-- There are no roles left, and nothing is looked at. -/
  | idle {value : Value} : roles.isEmpty = true → RenameStep registry roles value value
  | leaf {value : Value} : value.isBranch = false → RenameStep registry roles value value
  | keep {tag : String} {fields : Fields} :
      (∀ key, (Value.node tag fields).skips key = true) →
      (∀ name, Fields.get? fields "name" = some (.text name) →
        Kind.ofTag tag = .identifier → roles.role? name = none) →
      RenameStep registry roles (.node tag fields) (.node tag fields)
  | refer {tag : String} {fields : Fields} {name : String} {role : Role} :
      Kind.ofTag tag = .identifier → Fields.get? fields "name" = some (.text name) →
      roles.role? name = some role →
      RenameStep registry roles (.node tag fields)
        (.node tag (Fields.set fields "name" (.text role.word)))
  | items {items renamed : List Value} {inner : Roles} :
      HoldInside roles (.array items) inner →
      List.Forall₂ (RenamesTo registry inner) items renamed →
      RenameStep registry roles (.array items) (.array renamed)
  | fields {tag : String} {fields renamed : Fields} {inner : Roles}
      {enters : String → Bool} {arguments : Option Value} :
      Plan.GoesInside registry roles (.node tag fields) inner enters arguments →
      Fields.Related (FieldRenamesTo registry inner enters arguments) fields renamed →
      RenameStep registry roles (.node tag fields) (.node tag renamed)

/-- What a renaming returns for a value, and how it comes to that. -/
inductive RenameRun (registry : Registry) (roles : Roles) :
    Value → Edit Value → Tally → Prop where
  | idle {value : Value} : roles.isEmpty = true → RenameRun registry roles value .kept {}
  | leaf {value : Value} : value.isBranch = false → RenameRun registry roles value .kept {}
  | keep {tag : String} {fields : Fields} :
      Plan.ofNode registry roles (.node tag fields) = .ok .keep →
      RenameRun registry roles (.node tag fields) .kept {}
  | refer {tag : String} {fields : Fields} {role : Role} :
      Plan.ofNode registry roles (.node tag fields) = .ok (.refer role) →
      RenameRun registry roles (.node tag fields)
        (.changed (.node tag (Fields.set fields "name" (.text role.word)))) { renamed := 1 }
  | items {items names : List Value} {inner : Roles} {edit : Edit (List Value)}
      {tally : Tally} :
      hoistedNames (.array items) = .ok names → roles.without names = .ok inner →
      rename.renameItems registry inner items = .ok (edit, tally) →
      RenameRun registry roles (.array items) (edit.map .array) tally
  | fields {tag : String} {fields : Fields} {inner : Roles} {enters : String → Bool}
      {arguments : Option Value} {own tally : Tally} {edit : Edit Fields} :
      Plan.ofNode registry roles (.node tag fields) =
        .ok (.enter inner enters arguments own) →
      rename.renameFields registry inner enters arguments fields = .ok (edit, tally) →
      RenameRun registry roles (.node tag fields) (edit.map (.node tag)) (own ++ tally)

theorem renameRun (hrename : before.rename registry roles = .ok (edit, tally)) :
    RenameRun registry roles before edit tally := by
  cases before with
  | array items =>
    simp only [rename] at hrename
    split at hrename
    · rename_i hempty
      cases hrename
      exact .idle hempty
    simp only [bind_eq_ok_iff, pure_eq_ok_iff, Prod.mk.injEq] at hrename
    obtain ⟨names, hnames, inner, hinner, ⟨inside, below⟩, hitems, rfl, rfl⟩ := hrename
    exact .items hnames hinner hitems
  | node tag fields =>
    simp only [rename] at hrename
    split at hrename
    · rename_i hempty
      cases hrename
      exact .idle hempty
    rw [bind_eq_ok_iff] at hrename
    obtain ⟨plan, hplan, hrename⟩ := hrename
    cases plan with
    | keep =>
      cases hrename
      exact .keep hplan
    | refer role =>
      cases hrename
      exact .refer hplan
    | enter inner enters arguments own =>
      simp only [bind_eq_ok_iff, pure_eq_ok_iff, Prod.mk.injEq] at hrename
      obtain ⟨⟨inside, below⟩, hfields, rfl, rfl⟩ := hrename
      exact .fields hplan hfields
  | _ =>
    cases hrename
    exact .leaf rfl

theorem RenamesTo.renameStep (hrename : RenamesTo registry roles before after) :
    RenameStep registry roles before after := by
  obtain ⟨edit, tally, hrename, rfl⟩ := hrename
  cases renameRun hrename with
  | idle hempty => exact .idle hempty
  | leaf hleaf => exact .leaf hleaf
  | keep hplan =>
    obtain ⟨hskips, hrole⟩ := Plan.ofNode_eq_keep hplan
    exact .keep hskips hrole
  | refer hplan =>
    obtain ⟨name, hkind, hname, hrole⟩ := Plan.ofNode_eq_refer hplan
    exact .refer hkind hname hrole
  | items hnames hinner hitems =>
    rw [Edit.apply_map]
    exact .items (.of_scopeNames hnames hinner) (renameItems_eq_ok hitems)
  | fields hplan hfields =>
    rw [Edit.apply_map]
    exact .fields (Plan.ofNode_eq_enter hplan) (renameFields_eq_ok hfields)

/-- Without roles every value is renamed to itself. -/
theorem renamesTo_self (hempty : roles.isEmpty = true) (value : Value) :
    RenamesTo registry roles value value := by
  refine ⟨.kept, {}, ?_, rfl⟩
  cases value <;> simp [rename, hempty]

/-- A reference with a role is renamed. -/
theorem RenamesTo.of_change_nil (hrename : RenamesTo registry roles before after)
    (hchange : Change registry roles before [] value) : after = value := by
  obtain ⟨tag, fields, name, role, rfl, hkind, hname, hrole, rfl⟩ := change_nil_iff.1 hchange
  cases hrename.renameStep with
  | idle hempty => simp [Roles.role?_of_isEmpty hempty] at hrole
  | leaf hleaf => simp [isBranch] at hleaf
  | keep _ hnone => simp [hnone name hname hkind] at hrole
  | refer _ hother hrole' =>
    cases hname.symm.trans hother
    cases hrole.symm.trans hrole'
    rfl
  | fields hinside _ => exact absurd hkind hinside.kind

/-- A value that is no renamed reference keeps its outline. -/
theorem RenamesTo.outline_eq (hrename : RenamesTo registry roles before after)
    (hroot : ∀ value, ¬ Change registry roles before [] value) :
    after.outline = before.outline := by
  cases hrename.renameStep with
  | idle => rfl
  | leaf => rfl
  | keep => rfl
  | refer hkind hname hrole => exact absurd (change_nil_of_role hkind hname hrole) (hroot _)
  | items _ hitems => simp only [outline, hitems.length_eq]
  | fields _ hfields => simp only [outline, hfields.keys_eq]

/-- What a renaming makes of a child, unless the value itself is a reference that is
renamed: the child is renamed with the roles that hold inside, or it is a replaced
argument, or it stays. -/
theorem RenamesTo.child {step : Step} {child : Value}
    (hrename : RenamesTo registry roles before after)
    (hroot : ∀ value, ¬ Change registry roles before [] value)
    (hchild : before.child? step = some child) :
    (∃ inner renamed, HoldInside roles before inner ∧ Enters registry roles before step ∧
      after.child? step = some renamed ∧ RenamesTo registry inner child renamed) ∨
    (∃ module, step = .field "arguments" ∧ RequiresAt registry roles before [] module ∧
      after.child? step = some (.array [requirePath module])) ∨
    ((roles.isEmpty = true ∨ Edge.isSkipped ⟨before, step⟩ = true) ∧
      after.child? step = some child) := by
  cases hrename.renameStep with
  | idle hempty => exact .inr (.inr ⟨.inl hempty, hchild⟩)
  | leaf hleaf => cases before <;> simp [isBranch, child?] at hleaf hchild
  | keep hskips _ =>
    cases step with
    | item index => simp [child?] at hchild
    | field key => exact .inr (.inr ⟨.inr (hskips key), hchild⟩)
  | refer hkind hname hrole => exact absurd (change_nil_of_role hkind hname hrole) (hroot _)
  | @items items renamed inner hinside hitems =>
    cases step with
    | field key => simp [child?] at hchild
    | item index =>
      obtain ⟨other, hother, hitem⟩ := getElem?_of_forall₂ hitems hchild
      exact .inl ⟨inner, other, hinside, ⟨rfl, by simp⟩, hother, hitem⟩
  | @fields tag fields renamed inner enters arguments hinside hfields =>
    cases step with
    | item index => simp [child?] at hchild
    | field key =>
      obtain ⟨other, hother, hrelation⟩ := hfields.get? hchild
      rw [FieldRenamesTo] at hrelation
      cases hreplaced : arguments.filter fun _ => key == "arguments" with
      | some replaced =>
        rw [hreplaced] at hrelation
        obtain ⟨harguments, hkey⟩ := Option.filter_eq_some_iff.1 hreplaced
        rcases hinside.arguments_eq with ⟨module, hrequires, heq⟩ | ⟨heq, -⟩
        · cases heq.symm.trans harguments
          refine .inr (.inl ⟨module, ?_, hrequires, hrelation ▸ hother⟩)
          rw [beq_iff_eq.1 hkey]
        · cases heq.symm.trans harguments
      | none =>
        rw [hreplaced] at hrelation
        cases henters : enters key with
        | true =>
          simp only [henters, if_true] at hrelation
          exact .inl ⟨inner, other, hinside.inside,
            hinside.enters_iff.2 ⟨henters, hreplaced⟩, hother, hrelation⟩
        | false =>
          simp only [henters, Bool.false_eq_true, if_false] at hrelation
          rw [hinside.enters_eq, Bool.not_eq_false'] at henters
          exact .inr (.inr ⟨.inr henters, hrelation ▸ hother⟩)

end Value

end Debundle
