import Debundle.Proofs.Follows
import Debundle.Proofs.Rename.Step

/-!
# Reading a renamed tree

Another pass reads a tree by kinds, fields and items.  A renaming keeps every kind and the
place of every value, and what is read there is renamed itself.  There are two exceptions:
the text in the name of an identifier, and the arguments of a call of `require`.
-/

namespace Debundle

open Renaming

/-- Both values are missing, or both are there and related. -/
def Paired {α β : Type} (relation : α → β → Prop) (first : Option α) (second : Option β) : Prop :=
  (first = none ∧ second = none) ∨
    ∃ old new, first = some old ∧ second = some new ∧ relation old new

namespace Paired

variable {α β : Type} {relation : α → β → Prop} {first : Option α} {second : Option β}

theorem rel (hpaired : Paired relation first second) : Option.Rel relation first second := by
  rcases hpaired with ⟨rfl, rfl⟩ | ⟨old, new, rfl, rfl, hrelated⟩
  · exact .none
  · exact .some hrelated

theorem of_eq {relation : α → α → Prop} {second : Option α}
    (hself : ∀ value, relation value value) (hsame : second = first) :
    Paired relation first second := by
  subst hsame
  cases second with
  | none => exact .inl ⟨rfl, rfl⟩
  | some value => exact .inr ⟨value, value, rfl, rfl, hself value⟩

/-- What is found in a field is a part. -/
theorem part? {relation : Value → Value → Prop} {before after : Value} {key : String}
    (hpaired : Paired relation (before.lookup key) (after.lookup key)) :
    Paired (fun old new => relation old.value new.value) (before.part? key) (after.part? key) := by
  rcases hpaired with ⟨hbefore, hafter⟩ | ⟨old, new, hold, hnew, hrelated⟩
  · exact .inl ⟨Value.part?_eq_none_iff.2 hbefore, Value.part?_eq_none_iff.2 hafter⟩
  · obtain ⟨part, hpart, rfl⟩ := Value.exists_part hold
    obtain ⟨other, hother, rfl⟩ := Value.exists_part hnew
    exact .inr ⟨part, other, hpart, hother, hrelated⟩

end Paired

namespace Value

/-- Renaming, with whatever roles, turns one value into the other. -/
def Revised (registry : Registry) (before after : Value) : Prop :=
  ∃ roles, RenamesTo registry roles before after

/-- What a renaming makes of the value of a field of `node`. -/
def FieldRevised (registry : Registry) (node : Value) (key : String) (before after : Value) :
    Prop :=
  (Revised registry before after ∧ (node.skips key = true → after = before)) ∨
    (node.kind = .callExpression ∧ key = "arguments" ∧ ∃ literal name,
      node.lookup "arguments" = some (.array [literal]) ∧ literal.kind = .literal ∧
        after = .array [requirePath name])

/-- A renaming may put something of its own into the field. -/
def isRewritten (key : String) : Bool :=
  key == "name" || key == "arguments"

/-- The cases of a renaming as far as a reader can tell them. -/
inductive Revision (registry : Registry) : Value → Value → Prop where
  | same (value : Value) : Revision registry value value
  | items {items others : List Value} : List.Forall₂ (Revised registry) items others →
      Revision registry (.array items) (.array others)
  | name {tag : String} {fields : Fields} {old new : String} : Kind.ofTag tag = .identifier →
      Fields.get? fields "name" = some (.text old) →
      Revision registry (.node tag fields) (.node tag (Fields.set fields "name" (.text new)))
  | fields {tag : String} {fields others : Fields} : Kind.ofTag tag ≠ .identifier →
      Fields.Related (FieldRevised registry (.node tag fields)) fields others →
      Revision registry (.node tag fields) (.node tag others)

namespace Revised

variable {registry : Registry} {before after : Value} {key : String}

theorem self (value : Value) : Revised registry value value :=
  ⟨{}, renamesTo_self rfl value⟩

theorem revision (hrevised : Revised registry before after) : Revision registry before after := by
  obtain ⟨roles, hrename⟩ := hrevised
  cases hrename.renameStep with
  | idle => exact .same before
  | leaf => exact .same before
  | keep => exact .same _
  | refer hkind hname => exact .name hkind hname
  | items _ hitems => exact .items (hitems.imp fun _ _ hitem => ⟨_, hitem⟩)
  | @fields tag fields others inner enters arguments hinside hfields =>
    refine .fields hinside.kind (hfields.imp fun old new hfield => ⟨hfield.1, ?_⟩)
    have hrenames := hfield.2
    rw [FieldRenamesTo] at hrenames
    cases hreplaced : arguments.filter fun _ => old.1 == "arguments" with
    | some replaced =>
      rw [hreplaced] at hrenames
      obtain ⟨harguments, hkey⟩ := Option.filter_eq_some_iff.1 hreplaced
      rcases hinside.arguments_eq with ⟨module, hrequires, heq⟩ | ⟨heq, -⟩
      · obtain ⟨callee, hcall, -⟩ := requiresAt_nil_iff.1 hrequires
        obtain ⟨literal, hliteral, hkind, -⟩ := hcall.argument
        cases heq.symm.trans harguments
        exact .inr ⟨hcall.kind, beq_iff_eq.1 hkey, literal, module, hliteral, hkind, hrenames⟩
      · cases heq.symm.trans harguments
    | none =>
      rw [hreplaced] at hrenames
      have henters := hinside.enters_eq old.1
      cases hskips : (Value.node tag fields).skips old.1 with
      | true =>
        rw [henters, hskips] at hrenames
        have hkept : new.2 = old.2 := hrenames
        rw [hkept]
        exact .inl ⟨self _, fun _ => rfl⟩
      | false =>
        rw [henters, hskips] at hrenames
        refine .inl ⟨⟨inner, hrenames⟩, fun hskip => ?_⟩
        cases hskips.symm.trans hskip

variable (hrevised : Revised registry before after)

include hrevised

theorem kind_eq : after.kind = before.kind := by
  cases hrevised.revision <;> rfl

theorem isNull_eq : after.isNull = before.isNull := by
  cases hrevised.revision <;> rfl

theorem fields?_isSome : after.fields?.isSome = before.fields?.isSome := by
  cases hrevised.revision <;> rfl

theorem isBranch_eq : after.isBranch = before.isBranch := by
  cases hrevised.revision <;> rfl

theorem eq_of_leaf (hleaf : before.isBranch = false) : after = before := by
  cases hrevised.revision with
  | same => rfl
  | _ => cases hleaf

theorem isTruthy_eq : after.isTruthy = before.isTruthy := by
  cases hrevised.revision with
  | items hitems => cases hitems <;> rfl
  | _ => rfl

/-- An identifier is kept or gets a text for a name. -/
theorem eq_or_name (hkind : before.kind = .identifier) :
    after = before ∨ ∃ name, after.lookup "name" = some (.text name) := by
  cases hrevised.revision with
  | same => exact .inl rfl
  | items => cases hkind
  | @name tag fields old new => exact .inr ⟨new, by rw [lookup_node, Fields.get?_set, if_pos rfl]⟩
  | fields hother => exact absurd hkind hother

/-- What is found in a field. -/
theorem lookup_cases (key : String) :
    Paired (fun old new => FieldRevised registry before key old new ∨
      before.kind = .identifier ∧ key = "name" ∧ ∃ text other, old = .text text ∧ new = .text other)
      (before.lookup key) (after.lookup key) := by
  have hself : ∀ old, FieldRevised registry before key old old :=
    fun old => .inl ⟨self old, fun _ => rfl⟩
  cases hrevised.revision with
  | same => exact .of_eq (fun old => .inl (hself old)) rfl
  | items => exact .of_eq (fun old => .inl (hself old)) rfl
  | @name tag fields old new hkind hname =>
    by_cases hkey : key = "name"
    · subst hkey
      exact .inr ⟨_, _, hname, by rw [lookup_node, Fields.get?_set, if_pos rfl],
        .inr ⟨hkind, rfl, old, new, rfl, rfl⟩⟩
    · refine .of_eq (fun old => .inl (hself old)) ?_
      rw [lookup_node, lookup_node, Fields.get?_set, if_neg hkey]
  | @fields tag fields others hkind hfields =>
    rw [lookup_node, lookup_node]
    cases hold : Fields.get? fields key with
    | some old =>
      obtain ⟨new, hnew, hfield⟩ := hfields.get? hold
      exact .inr ⟨old, new, rfl, hnew, .inl hfield⟩
    | none =>
      refine .inl ⟨rfl, ?_⟩
      rw [← Option.not_isSome_iff_eq_none, Fields.get?_isSome_iff, hfields.keys_eq,
        ← Fields.get?_isSome_iff, hold]
      simp

/-- What is found in a field that is neither a name nor a list of arguments. -/
theorem lookup_plain (key : String) (hkey : isRewritten key = false) :
    Paired (Revised registry) (before.lookup key) (after.lookup key) := by
  rw [isRewritten, Bool.or_eq_false_iff, beq_eq_false_iff_ne, beq_eq_false_iff_ne] at hkey
  rcases hrevised.lookup_cases key with hnone | ⟨old, new, hold, hnew, hfield | ⟨-, hname, -⟩⟩
  · exact .inl hnone
  · rcases hfield with ⟨hrevised, -⟩ | ⟨-, harguments, -⟩
    · exact .inr ⟨old, new, hold, hnew, hrevised⟩
    · exact absurd harguments hkey.2
  · exact absurd hname hkey.1

theorem part?_plain (key : String) (hkey : isRewritten key = false) :
    Paired (fun old new => Revised registry old.value new.value) (before.part? key)
      (after.part? key) :=
  (hrevised.lookup_plain _ hkey).part?

theorem given?_plain (key : String) (hkey : isRewritten key = false) :
    Paired (fun old new => Revised registry old.value new.value) (before.given? key)
      (after.given? key) := by
  rw [given?, given?]
  rcases hrevised.part?_plain _ hkey with ⟨hbefore, hafter⟩ | ⟨old, new, hold, hnew, hpart⟩
  · rw [hbefore, hafter]
    exact .inl ⟨rfl, rfl⟩
  · rw [hold, hnew, Option.filter_some, Option.filter_some, hpart.isNull_eq]
    cases old.value.isNull with
    | true => exact .inl ⟨rfl, rfl⟩
    | false => exact .inr ⟨old, new, rfl, rfl, hpart⟩

theorem flag_eq (key : String) (hkey : isRewritten key = false) :
    after.flag key = before.flag key := by
  rw [flag, flag]
  rcases hrevised.lookup_plain _ hkey with ⟨hbefore, hafter⟩ | ⟨old, new, hold, hnew, hpart⟩
  · rw [hbefore, hafter]
  · rw [hold, hnew, Option.any_some, Option.any_some, hpart.isTruthy_eq]

/-- A renaming does not make a text, and keeps each that it finds. -/
theorem lookup_eq_or_branches (key : String) (hkey : isRewritten key = false) :
    after.lookup key = before.lookup key ∨
      ∃ old new, before.lookup key = some old ∧ after.lookup key = some new ∧
        old.isBranch = true ∧ new.isBranch = true := by
  rcases hrevised.lookup_plain _ hkey with ⟨hbefore, hafter⟩ | ⟨old, new, hold, hnew, hpart⟩
  · exact .inl (hafter.trans hbefore.symm)
  · cases hleaf : old.isBranch with
    | false => exact .inl (by rw [hold, hnew, hpart.eq_of_leaf hleaf])
    | true => exact .inr ⟨old, new, hold, hnew, hleaf, hpart.isBranch_eq.trans hleaf⟩

theorem require_follows (hkey : isRewritten key = false) :
    Follows (fun old new => Revised registry old.value new.value) (before.require key)
      (after.require key) := by
  intro old hold
  rcases hrevised.part?_plain _ hkey with ⟨hbefore, -⟩ | ⟨part, other, hpart, hother, hrelated⟩
  · cases hbefore.symm.trans (require_eq_ok_iff.1 hold)
  · cases hpart.symm.trans (require_eq_ok_iff.1 hold)
    exact ⟨other, require_eq_ok_iff.2 hother, hrelated⟩

theorem asRecord_follows : Follows Loosely before.asRecord after.asRecord := by
  rw [asRecord, asRecord, hrevised.fields?_isSome]
  exact .ite Iff.rfl (fun _ => .pure trivial) fun _ => .error

theorem elements_follows : Follows (List.Forall₂ (Revised registry)) before.elements
    after.elements := by
  cases hrevised.revision with
  | same =>
    intro items hitems
    exact ⟨items, hitems, List.forall₂_same.2 fun item _ => self item⟩
  | items hitems => exact .pure hitems
  | name => exact .error
  | fields => exact .error

theorem length_follows : Follows Eq before.length after.length := by
  cases hrevised.revision with
  | same => exact fun count hcount => ⟨count, hcount, rfl⟩
  | items hitems => exact .pure hitems.length_eq
  | name => exact .error
  | fields => exact .error

theorem item_follows (position : Nat) :
    Follows (Revised registry) (before.item position) (after.item position) := by
  cases hrevised.revision with
  | same => exact fun item hitem => ⟨item, hitem, self item⟩
  | @items items others hitems =>
    rw [item, item]
    cases hitem : items[position]? with
    | none => exact .error
    | some item =>
      obtain ⟨other, hother, hrelated⟩ := getElem?_of_forall₂ hitems hitem
      rw [hother]
      exact .pure hrelated
  | name => exact .error
  | fields => exact .error

end Revised

end Value

/-- The parts are renamed into each other. -/
abbrev Part.Revised (registry : Registry) {whole other : Value} (before : Part whole)
    (after : Part other) : Prop :=
  Value.Revised registry before.value after.value

namespace Part.Revised

variable {registry : Registry} {whole other : Value} {before : Part whole} {after : Part other}
  {key : String}

theorem elements_follows (hrevised : Part.Revised registry before after) :
    Follows (List.Forall₂ (Part.Revised registry)) before.elements after.elements := by
  have hvalues := Value.Revised.elements_follows hrevised
  rw [← Part.elements_map_value, ← Part.elements_map_value] at hvalues
  refine hvalues.of_map.mono fun parts others hparts => ?_
  rwa [List.forall₂_map_left_iff, List.forall₂_map_right_iff] at hparts

theorem item_follows (hrevised : Part.Revised registry before after) (position : Nat) :
    Follows (Part.Revised registry) (before.item position) (after.item position) := by
  have hvalues := Value.Revised.item_follows hrevised position
  rw [← Part.item_map_value, ← Part.item_map_value] at hvalues
  exact hvalues.of_map

/-- A field that may be missing. -/
theorem part?_rel (hrevised : Part.Revised registry before after)
    (key : String) (hkey : Value.isRewritten key = false) :
    Option.Rel (Part.Revised registry) ((before.value.part? key).map before.within)
      ((after.value.part? key).map after.within) := by
  rcases Value.Revised.part?_plain hrevised _ hkey with
    ⟨hbefore, hafter⟩ | ⟨old, new, hold, hnew, hpart⟩
  · rw [hbefore, hafter]
    exact .none
  · rw [hold, hnew]
    exact .some hpart

/-- A field that counts as present does so after the renaming. -/
theorem filter_isTruthy {part? : Option (Part whole)} {new? : Option (Part other)}
    (hpart : Option.Rel (Part.Revised registry) part? new?) :
    Option.Rel (Part.Revised registry) (part?.filter fun part => part.value.isTruthy)
      (new?.filter fun part => part.value.isTruthy) := by
  cases hpart with
  | none => exact .none
  | @some part new hpart =>
    rw [Option.filter_some, Option.filter_some, Value.Revised.isTruthy_eq hpart]
    cases part.value.isTruthy with
    | true => exact .some hpart
    | false => exact .none

end Part.Revised

namespace Value.Revised

variable {registry : Registry} {before after : Value} {key : String}

theorem part?_rel (hrevised : Revised registry before after) (key : String)
    (hkey : isRewritten key = false) :
    Option.Rel (Part.Revised registry) (before.part? key) (after.part? key) :=
  (hrevised.part?_plain _ hkey).rel

theorem given?_rel (hrevised : Revised registry before after) (key : String)
    (hkey : isRewritten key = false) :
    Option.Rel (Part.Revised registry) (before.given? key) (after.given? key) :=
  (hrevised.given?_plain _ hkey).rel

theorem listAt_follows_of_rel
    (hpart : Option.Rel (Part.Revised registry) (before.part? key) (after.part? key)) :
    Follows (List.Forall₂ (Part.Revised registry)) (before.listAt key) (after.listAt key) := by
  rw [listAt, listAt]
  generalize before.part? key = part?, after.part? key = new? at hpart
  cases hpart with
  | none => exact .pure .nil
  | some hpart =>
    simp only [isTruthy_eq hpart]
    exact .ite Iff.rfl (fun _ => Part.Revised.elements_follows hpart) fun _ => .pure .nil

theorem listAt_follows (hrevised : Revised registry before after)
    (hkey : isRewritten key = false) :
    Follows (List.Forall₂ (Part.Revised registry)) (before.listAt key) (after.listAt key) :=
  listAt_follows_of_rel (hrevised.part?_rel _ hkey)

end Value.Revised

namespace Part.Revised

variable {registry : Registry} {whole other : Value} {before : Part whole} {after : Part other}
  {key : String} (hrevised : Part.Revised registry before after)

include hrevised

theorem require_follows (hkey : Value.isRewritten key = false) :
    Follows (Part.Revised registry) (before.require key) (after.require key) :=
  (Value.Revised.require_follows hrevised hkey).bind fun _ _ hpart => .pure hpart

theorem listAt_follows (hkey : Value.isRewritten key = false) :
    Follows (List.Forall₂ (Part.Revised registry)) (before.listAt key) (after.listAt key) := by
  refine (Value.Revised.asRecord_follows hrevised).bind fun _ _ _ => ?_
  refine (Value.Revised.listAt_follows hrevised hkey).bind fun parts others hparts => .pure ?_
  rw [List.forall₂_map_left_iff, List.forall₂_map_right_iff]
  exact hparts

theorem flag_follows (hkey : Value.isRewritten key = false) :
    Follows Eq (before.flag key) (after.flag key) :=
  (Value.Revised.asRecord_follows hrevised).bind fun _ _ _ =>
    .pure (Value.Revised.flag_eq hrevised _ hkey).symm

theorem given?_follows (hkey : Value.isRewritten key = false) :
    Follows (Option.Rel (Part.Revised registry)) (before.given? key) (after.given? key) := by
  refine (Value.Revised.asRecord_follows hrevised).bind fun _ _ _ => .pure ?_
  rcases Value.Revised.given?_plain hrevised _ hkey with
    ⟨hbefore, hafter⟩ | ⟨old, new, hold, hnew, hpart⟩
  · rw [hbefore, hafter]
    exact .none
  · rw [hold, hnew]
    exact .some hpart

end Part.Revised

namespace Value

/-- Whether a call has one argument alone, and that of this kind. -/
def takesOnly (kind : Kind) (call : Value) : Except Fault Bool :=
  (call.lookup "arguments").elim (.ok false) fun arguments =>
    (if arguments.isTruthy then arguments.length else .ok 0) >>= fun count =>
      if count = 1 then ((arguments.item 0).map Value.kind).map (· == kind) else .ok false

namespace Revised

variable {registry : Registry} {before after : Value} (hrevised : Revised registry before after)

include hrevised

theorem length_eq : after.length = before.length := by
  cases hrevised.revision with
  | items hitems => exact congrArg Except.ok hitems.length_eq.symm
  | _ => rfl

theorem item_kind_eq (position : Nat) :
    (after.item position).map kind = (before.item position).map kind := by
  cases hrevised.revision with
  | @items items others hitems =>
    rw [item, item]
    cases hitem : items[position]? with
    | none =>
      have hnone : others[position]? = none := by
        rw [List.getElem?_eq_none_iff, ← hitems.length_eq]
        exact List.getElem?_eq_none_iff.1 hitem
      rw [hnone]
    | some held =>
      obtain ⟨other, hother, hrelated⟩ := getElem?_of_forall₂ hitems hitem
      rw [hother]
      exact congrArg Except.ok hrelated.kind_eq
  | _ => rfl

/-- The arguments of a call keep their number, and the kind of the first. -/
theorem arguments_cases :
    (before.lookup "arguments" = none ∧ after.lookup "arguments" = none) ∨
      ∃ old new, before.lookup "arguments" = some old ∧ after.lookup "arguments" = some new ∧
        new.isTruthy = old.isTruthy ∧ new.length = old.length ∧
        (new.item 0).map kind = (old.item 0).map kind := by
  rcases hrevised.lookup_cases "arguments" with
    hnone | ⟨old, new, hold, hnew, hfield | ⟨-, hname, -⟩⟩
  · exact .inl hnone
  · refine .inr ⟨old, new, hold, hnew, ?_⟩
    rcases hfield with ⟨hpart, -⟩ | ⟨-, -, literal, name, harguments, hliteral, rfl⟩
    · exact ⟨hpart.isTruthy_eq, hpart.length_eq, hpart.item_kind_eq 0⟩
    · cases hold.symm.trans harguments
      exact ⟨rfl, rfl, congrArg Except.ok hliteral.symm⟩
  · exact absurd hname (by decide)

theorem takesOnly_eq (kind : Kind) : after.takesOnly kind = before.takesOnly kind := by
  rw [takesOnly, takesOnly]
  rcases hrevised.arguments_cases with
    ⟨hbefore, hafter⟩ | ⟨old, new, hold, hnew, htruthy, hlength, hkind⟩
  · rw [hbefore, hafter]
  · rw [hold, hnew, Option.elim_some, Option.elim_some, htruthy, hlength, hkind]

end Revised

end Value

end Debundle
