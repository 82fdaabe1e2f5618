import Debundle.Proofs.Rename.Revision

/-!
# The names that a renamed scope declares

The names that a pattern binds or that statements declare are read from the tree, and a
renaming may come to them.  Each is then kept, or it is a text and gets the word of its
role.  So a scope that has taken the roles from all its names declares the same names
afterwards.  This holds of all trees, whether or not they are well-formed.
-/

namespace Debundle

open Renaming

namespace Roles

/-- Every name has the role that it has in `outer`, or none. -/
def Within (inner outer : Roles) : Prop :=
  ∀ name role, inner.role? name = some role → outer.role? name = some role

/-- A name is kept, or it is a text and gets the word of its role. -/
def Renames (roles : Roles) (old new : Value) : Prop :=
  new = old ∨ ∃ text role, old = .text text ∧ roles.role? text = some role ∧ new = .text role.word

variable {inner outer roles : Roles}

theorem Within.refl (roles : Roles) : roles.Within roles :=
  fun _ _ hrole => hrole

theorem Within.trans (hfirst : inner.Within outer) (hsecond : outer.Within roles) :
    inner.Within roles :=
  fun name role hrole => hsecond name role (hfirst name role hrole)

theorem Within.of_isEmpty (hempty : inner.isEmpty = true) : inner.Within outer := by
  intro name role hrole
  cases (role?_of_isEmpty hempty name).symm.trans hrole

theorem Renames.forall₂_refl (roles : Roles) (names : List Value) :
    List.Forall₂ roles.Renames names names :=
  List.forall₂_same.2 fun _ _ => .inl rfl

/-- Names that have no roles are kept. -/
theorem eq_of_forall₂_renames {names others : List Value}
    (hnames : List.Forall₂ roles.Renames names others)
    (hfree : ∀ text, Value.text text ∈ names → roles.role? text = none) : others = names := by
  induction hnames with
  | nil => rfl
  | cons hfirst _ ih =>
    rw [ih fun text htext => hfree text (List.mem_cons_of_mem _ htext)]
    rcases hfirst with rfl | ⟨text, role, rfl, hrole, -⟩
    · rfl
    · cases (hfree text List.mem_cons_self).symm.trans hrole

end Roles

theorem Renaming.HoldInside.within {roles inner : Roles} {value : Value}
    (hinside : HoldInside roles value inner) : inner.Within roles :=
  fun name role hrole => ((hinside name role).1 hrole).1

namespace Value

variable {registry : Registry} {roles : Roles} {before after : Value} {key : String}

/-- Renaming turns one value into the other, with no other roles than these. -/
def RevisedWithin (registry : Registry) (roles : Roles) (before after : Value) : Prop :=
  ∃ inner : Roles, inner.Within roles ∧ RenamesTo registry inner before after

namespace RevisedWithin

theorem self (value : Value) : RevisedWithin registry roles value value :=
  ⟨{}, .of_isEmpty rfl, renamesTo_self rfl value⟩

theorem revised (hrevised : RevisedWithin registry roles before after) :
    Revised registry before after := by
  obtain ⟨inner, -, hrename⟩ := hrevised
  exact ⟨inner, hrename⟩

/-- A field that is not replaced is renamed or kept. -/
theorem of_fieldRenamesTo {inner : Roles} {enters : String → Bool} {arguments : Option Value}
    (hwithin : inner.Within roles)
    (hnone : (arguments.filter fun _ => key == "arguments") = none)
    (hfield : FieldRenamesTo registry inner enters arguments key before after) :
    RevisedWithin registry roles before after := by
  rw [FieldRenamesTo, hnone] at hfield
  cases henters : enters key with
  | true =>
    rw [henters] at hfield
    exact ⟨inner, hwithin, hfield⟩
  | false =>
    rw [henters] at hfield
    replace hfield : after = before := hfield
    exact hfield ▸ self after

variable (hrevised : RevisedWithin registry roles before after)

include hrevised

theorem lookup_plain (key : String) (hkey : isRewritten key = false) :
    Paired (RevisedWithin registry roles) (before.lookup key) (after.lookup key) := by
  rw [isRewritten, Bool.or_eq_false_iff, beq_eq_false_iff_ne, beq_eq_false_iff_ne] at hkey
  obtain ⟨inner, hwithin, hrename⟩ := hrevised
  cases hrename.renameStep with
  | idle | leaf | keep | items => exact .of_eq self rfl
  | refer =>
    refine .of_eq self ?_
    rw [lookup_node, lookup_node, Fields.get?_set, if_neg hkey.1]
  | @fields tag fields others innermost enters arguments hinside hfields =>
    cases hold : Fields.get? fields key with
    | none =>
      refine .of_eq self ?_
      rw [lookup_node, lookup_node, hold, ← Option.not_isSome_iff_eq_none,
        Fields.get?_isSome_iff, hfields.keys_eq, ← Fields.get?_isSome_iff, hold]
      simp
    | some old =>
      obtain ⟨new, hnew, hfield⟩ := hfields.get? hold
      have hnone : (arguments.filter fun _ => key == "arguments") = none := by
        rw [beq_false_of_ne hkey.2, Option.filter_eq_none_iff]
        simp
      exact .inr ⟨old, new, hold, hnew,
        of_fieldRenamesTo (hinside.inside.within.trans hwithin) hnone hfield⟩

theorem part?_plain (key : String) (hkey : isRewritten key = false) :
    Paired (fun old new => RevisedWithin registry roles old.value new.value) (before.part? key)
      (after.part? key) :=
  (hrevised.lookup_plain _ hkey).part?

theorem elements_follows :
    Follows (List.Forall₂ (RevisedWithin registry roles)) before.elements after.elements := by
  obtain ⟨inner, hwithin, hrename⟩ := hrevised
  have hkept : Follows (List.Forall₂ (RevisedWithin registry roles)) before.elements
      before.elements :=
    fun items hitems => ⟨items, hitems, List.forall₂_same.2 fun item _ => self item⟩
  cases hrename.renameStep with
  | idle | leaf | keep => exact hkept
  | refer => exact .error
  | items hinside hitems =>
    exact .pure (hitems.imp fun _ _ hitem => ⟨_, hinside.within.trans hwithin, hitem⟩)
  | fields => exact .error

theorem listAt_follows (hkey : isRewritten key = false) :
    Follows (List.Forall₂ fun old new => RevisedWithin registry roles old.value new.value)
      (before.listAt key) (after.listAt key) := by
  rw [listAt, listAt]
  rcases hrevised.part?_plain _ hkey with ⟨hbefore, hafter⟩ | ⟨old, new, hold, hnew, hpart⟩
  · rw [hbefore, hafter]
    exact .pure .nil
  · rw [hold, hnew]
    simp only [hpart.revised.isTruthy_eq]
    refine .ite Iff.rfl (fun _ => ?_) fun _ => .pure .nil
    have hvalues := hpart.elements_follows
    rw [← Part.elements_map_value, ← Part.elements_map_value] at hvalues
    refine hvalues.of_map.mono fun parts others hparts => ?_
    rwa [List.forall₂_map_left_iff, List.forall₂_map_right_iff] at hparts

theorem name_follows (hkind : before.kind = .identifier) :
    Follows roles.Renames before.name after.name := by
  obtain ⟨inner, hwithin, hrename⟩ := hrevised
  have hkept : Follows roles.Renames before.name before.name :=
    fun name hname => ⟨name, hname, .inl rfl⟩
  cases hrename.renameStep with
  | idle | leaf | keep => exact hkept
  | items => cases hkind
  | @refer tag fields text role _ htext hrole =>
    intro name hname
    cases (lookup_of_name hname).symm.trans htext
    have hword : (Value.node tag (Fields.set fields "name" (.text role.word))).lookup "name" =
        some (.text role.word) := by
      rw [lookup_node, Fields.get?_set, if_pos rfl]
    exact ⟨_, name_eq_ok hword, .inr ⟨text, role, rfl, hwithin text role hrole, rfl⟩⟩
  | fields hinside => exact absurd hkind hinside.kind

end RevisedWithin

section BoundNames

variable {pattern : Value}

theorem boundNames_of_identifier (hkind : pattern.kind = .identifier) :
    pattern.boundNames = pattern.name >>= fun name => pure [name] := by
  rw [boundNames]
  simp only [hkind]

/-- The field that holds the only pattern inside a pattern. -/
def targetField? : Kind → Option String
  | .assignmentPattern => some "left"
  | .restElement => some "argument"
  | _ => none

theorem boundNames_of_target (hkey : targetField? pattern.kind = some key) :
    pattern.boundNames =
      (pattern.part? key).elim (.ok []) fun target => target.value.boundNames := by
  rw [boundNames]
  cases hkind : pattern.kind with
  | assignmentPattern =>
    rw [hkind] at hkey
    cases hkey
    cases pattern.part? "left" <;> rfl
  | restElement =>
    rw [hkind] at hkey
    cases hkey
    cases pattern.part? "argument" <;> rfl
  | _ =>
    rw [hkind] at hkey
    cases hkey

/-- The names bound by a member of an object pattern. -/
def memberNames (member : Value) : Except Fault (List Value) :=
  if member.kind = .property then
    (member.part? "value").elim (.ok []) fun target => target.value.boundNames
  else member.boundNames

theorem boundNames_of_arrayPattern (hkind : pattern.kind = .arrayPattern) :
    pattern.boundNames = pattern.listAt "elements" >>= fun elements =>
      elements.mapM (fun element => element.value.boundNames) >>= fun names =>
        pure names.flatten := by
  rw [boundNames]
  simp only [hkind]

theorem boundNames_of_objectPattern (hkind : pattern.kind = .objectPattern) :
    pattern.boundNames = pattern.listAt "properties" >>= fun properties =>
      properties.mapM (fun property => property.value.memberNames) >>= fun names =>
        pure names.flatten := by
  rw [boundNames]
  simp only [hkind]
  refine congrArg _ (funext fun properties => ?_)
  refine congrArg (fun names => List.mapM names properties >>= fun names => pure names.flatten)
    (funext fun property => ?_)
  cases hvalue : property.value.part? "value" <;>
    simp only [memberNames, hvalue, Option.elim_none, Option.elim_some]

/-- Patterns of no other kinds bind names. -/
theorem boundNames_cases (kind : Kind) :
    kind = .identifier ∨ (∃ key, targetField? kind = some key) ∨ kind = .arrayPattern ∨
      kind = .objectPattern ∨
      ∀ pattern : Value, pattern.kind = kind → pattern.boundNames = .ok [] := by
  cases kind with
  | identifier => exact .inl rfl
  | assignmentPattern | restElement => exact .inr (.inl ⟨_, rfl⟩)
  | arrayPattern => exact .inr (.inr (.inl rfl))
  | objectPattern => exact .inr (.inr (.inr (.inl rfl)))
  | _ =>
    refine .inr (.inr (.inr (.inr fun pattern hkind => ?_)))
    rw [boundNames]
    simp only [hkind]

end BoundNames

theorem targetField?_plain {kind : Kind} (hkey : targetField? kind = some key) :
    isRewritten key = false := by
  cases kind <;> cases hkey <;> decide

/-- The names of a renamed pattern. -/
theorem boundNames_follows {before after : Value}
    (hrevised : RevisedWithin registry roles before after) :
    Follows (List.Forall₂ roles.Renames) before.boundNames after.boundNames := by
  have hkind_eq := hrevised.revised.kind_eq
  have hpart : ∀ {outer : Value}, outer.size ≤ before.size → ∀ {other key},
      RevisedWithin registry roles outer other → isRewritten key = false →
        Follows (List.Forall₂ roles.Renames)
          ((outer.part? key).elim (.ok []) fun target => target.value.boundNames)
          ((other.part? key).elim (.ok []) fun target => target.value.boundNames) := by
    intro outer hsize other key hother hkey
    rcases hother.part?_plain _ hkey with ⟨hbefore, hafter⟩ | ⟨old, new, hold, hnew, hpart⟩
    · rw [hbefore, hafter]
      exact .pure .nil
    · rw [hold, hnew]
      have hsmaller := Nat.lt_of_lt_of_le old.smaller hsize
      exact boundNames_follows hpart
  rcases boundNames_cases before.kind with hkind | ⟨key, hkey⟩ | hkind | hkind | hnone
  · rw [boundNames_of_identifier hkind, boundNames_of_identifier (hkind_eq.trans hkind)]
    exact (hrevised.name_follows hkind).bind fun old new hname => .pure (.cons hname .nil)
  · rw [boundNames_of_target hkey, boundNames_of_target (hkind_eq ▸ hkey)]
    exact hpart (Nat.le_refl _) hrevised (targetField?_plain hkey)
  · rw [boundNames_of_arrayPattern hkind, boundNames_of_arrayPattern (hkind_eq.trans hkind)]
    refine (hrevised.listAt_follows rfl).bind fun parts others hparts => ?_
    refine (Follows.mapM hparts fun old new helement => ?_).bind fun names news hnames =>
      .pure (List.rel_flatten hnames)
    have hsmaller := old.smaller
    exact boundNames_follows helement
  · rw [boundNames_of_objectPattern hkind, boundNames_of_objectPattern (hkind_eq.trans hkind)]
    refine (hrevised.listAt_follows rfl).bind fun parts others hparts => ?_
    refine (Follows.mapM hparts fun old new hmember => ?_).bind fun names news hnames =>
      .pure (List.rel_flatten hnames)
    have hsmaller := old.smaller
    rw [memberNames, memberNames, hmember.revised.kind_eq]
    exact .ite Iff.rfl (fun _ => hpart (Nat.le_of_lt hsmaller) hmember rfl)
      fun _ => boundNames_follows hmember
  · rw [hnone before rfl, hnone after hkind_eq]
    exact .pure .nil
termination_by before.size

theorem boundNamesAt_follows (hrevised : RevisedWithin registry roles before after)
    (hkey : isRewritten key = false) :
    Follows (List.Forall₂ roles.Renames) (before.boundNamesAt key) (after.boundNamesAt key) := by
  rw [boundNamesAt, boundNamesAt]
  rcases hrevised.lookup_plain _ hkey with ⟨hbefore, hafter⟩ | ⟨old, new, hold, hnew, hpattern⟩
  · rw [hbefore, hafter]
    exact .pure .nil
  · rw [hold, hnew]
    exact boundNames_follows hpattern

theorem declaredNames_of_var (hvar : before.lookup "kind" = some (.text "var")) :
    before.declaredNames = before.listAt "declarations" >>= fun declarators =>
      declarators.mapM (fun declarator => do
        declarator.value.asRecord
        declarator.value.boundNamesAt "id") >>= fun names => pure names.flatten := by
  rw [declaredNames]
  simp only [hvar]

theorem declaredNames_of_not_var (hvar : before.lookup "kind" ≠ some (.text "var")) :
    before.declaredNames = .ok [] := by
  rw [declaredNames]
  split
  · rename_i heq
    exact absurd heq hvar
  · rfl

/-- The names of a renamed variable declaration. -/
theorem declaredNames_follows (hrevised : RevisedWithin registry roles before after) :
    Follows (List.Forall₂ roles.Renames) before.declaredNames after.declaredNames := by
  have hvar : after.lookup "kind" = some (.text "var") ↔
      before.lookup "kind" = some (.text "var") := by
    rcases hrevised.revised.lookup_eq_or_branches "kind" rfl with
      hsame | ⟨old, new, hold, hnew, hbranch, hother⟩
    · rw [hsame]
    · rw [hold, hnew]
      constructor
      · rintro ⟨⟩
        cases hother
      · rintro ⟨⟩
        cases hbranch
  by_cases hbefore : before.lookup "kind" = some (.text "var")
  · rw [declaredNames_of_var hbefore, declaredNames_of_var (hvar.2 hbefore)]
    refine (hrevised.listAt_follows rfl).bind fun parts others hparts => ?_
    refine (Follows.mapM hparts fun old new hdeclarator => ?_).bind fun names news hnames =>
      .pure (List.rel_flatten hnames)
    exact hdeclarator.revised.asRecord_follows.bind fun _ _ _ =>
      boundNamesAt_follows hdeclarator rfl
  · rw [declaredNames_of_not_var hbefore, declaredNames_of_not_var (mt hvar.1 hbefore)]
    exact .pure .nil

/-- There is no node anywhere in the value. -/
def Nodeless (value : Value) : Prop :=
  ∀ position inside, value.at? position = some inside → inside.isNode = false

/-- No node in the value has two fields of one name, and no literal in it holds nodes. -/
structure Orderly (value : Value) : Prop where
  distinct : ∀ position tag fields, value.at? position = some (.node tag fields) →
    (Fields.keys fields).Nodup
  literals : ∀ position literal, value.at? position = some literal → literal.kind = .literal →
    ∀ step child, literal.child? step = some child → child.Nodeless

variable {value : Value}

theorem Nodeless.child {child : Value} (hnodeless : value.Nodeless) (step : Step)
    (hchild : value.child? step = some child) : child.Nodeless := by
  intro position inside hinside
  exact hnodeless (step :: position) inside (by rw [at?_cons, hchild, Option.bind_some, hinside])

theorem Orderly.child {value child : Value} (horderly : value.Orderly) (step : Step)
    (hchild : value.child? step = some child) : child.Orderly := by
  have hinside : ∀ position, value.at? (step :: position) = child.at? position := by
    intro position
    rw [at?_cons, hchild, Option.bind_some]
  constructor
  · intro position tag fields hnode
    exact horderly.distinct (step :: position) tag fields (by rw [hinside, hnode])
  · intro position literal hliteral
    exact horderly.literals (step :: position) literal (by rw [hinside, hliteral])

/-- In an orderly node every field is found under its name. -/
theorem Orderly.child?_of_mem {tag : String} {fields : Fields} {entry : String × Value}
    (horderly : (Value.node tag fields).Orderly) (hentry : entry ∈ fields) :
    (Value.node tag fields).child? (.field entry.1) = some entry.2 :=
  Fields.get?_of_mem (horderly.distinct [] tag fields rfl) hentry

/-- Whether there is no node in a value. -/
def isNodeless : Value → Bool
  | .array items => areNodeless items
  | .node .. => false
  | _ => true
where
  areNodeless : List Value → Bool
    | [] => true
    | item :: rest => item.isNodeless && areNodeless rest

/-- Whether a value is orderly. -/
def isOrderly : Value → Bool
  | .array items => itemsAreOrderly items
  | .node tag fields =>
    decide (Fields.keys fields).Nodup &&
      (Kind.ofTag tag != .literal || fields.all fun entry => entry.2.isNodeless) &&
      fieldsAreOrderly fields
  | _ => true
where
  itemsAreOrderly : List Value → Bool
    | [] => true
    | item :: rest => item.isOrderly && itemsAreOrderly rest
  fieldsAreOrderly : List (String × Value) → Bool
    | [] => true
    | (_, value) :: rest => value.isOrderly && fieldsAreOrderly rest

theorem areNodeless_eq_all (items : List Value) :
    isNodeless.areNodeless items = items.all isNodeless := by
  induction items with
  | nil => rfl
  | cons item rest ih => rw [isNodeless.areNodeless, List.all_cons, ih]

theorem itemsAreOrderly_eq_all (items : List Value) :
    isOrderly.itemsAreOrderly items = items.all isOrderly := by
  induction items with
  | nil => rfl
  | cons item rest ih => rw [isOrderly.itemsAreOrderly, List.all_cons, ih]

theorem fieldsAreOrderly_eq_all (fields : Fields) :
    isOrderly.fieldsAreOrderly fields = fields.all fun entry => entry.2.isOrderly := by
  induction fields with
  | nil => rfl
  | cons entry rest ih => rw [isOrderly.fieldsAreOrderly, List.all_cons, ih]

theorem nodeless_of_isNodeless (hnodeless : value.isNodeless = true) : value.Nodeless := by
  intro position
  induction position generalizing value with
  | nil =>
    rintro inside ⟨⟩
    cases value with
    | node => cases hnodeless
    | _ => rfl
  | cons step rest ih =>
    intro inside hinside
    obtain ⟨child, hchild, hrest⟩ := Option.bind_eq_some_iff.1 hinside
    refine ih ?_ inside hrest
    cases value with
    | array items =>
      cases step with
      | item index =>
        rw [isNodeless, areNodeless_eq_all, List.all_eq_true] at hnodeless
        exact hnodeless child (List.mem_of_getElem? hchild)
      | field => cases hchild
    | node => cases hnodeless
    | _ => cases hchild

theorem isOrderly_at? {inside : Value} {position : Position} (horderly : value.isOrderly = true)
    (hinside : value.at? position = some inside) : inside.isOrderly = true := by
  induction position generalizing value with
  | nil =>
    cases hinside
    exact horderly
  | cons step rest ih =>
    obtain ⟨child, hchild, hrest⟩ := Option.bind_eq_some_iff.1 hinside
    refine ih ?_ hrest
    cases value with
    | array items =>
      cases step with
      | item index =>
        rw [isOrderly, itemsAreOrderly_eq_all, List.all_eq_true] at horderly
        exact horderly child (List.mem_of_getElem? hchild)
      | field => cases hchild
    | node tag fields =>
      cases step with
      | item => cases hchild
      | field key =>
        rw [isOrderly, Bool.and_eq_true, fieldsAreOrderly_eq_all, List.all_eq_true] at horderly
        exact horderly.2 (key, child) (Fields.mem_of_get? hchild)
    | _ => cases hchild

theorem orderly_of_isOrderly (horderly : value.isOrderly = true) : value.Orderly := by
  constructor
  · intro position tag fields hnode
    have hinside := isOrderly_at? horderly hnode
    rw [isOrderly, Bool.and_eq_true, Bool.and_eq_true, decide_eq_true_eq] at hinside
    exact hinside.1.1
  · intro position literal hliteral hkind step child hchild
    have hinside := isOrderly_at? horderly hliteral
    cases literal with
    | node tag fields =>
      cases step with
      | item => cases hchild
      | field key =>
        have hliteralTag : Kind.ofTag tag = .literal := hkind
        rw [isOrderly, hliteralTag] at hinside
        simp only [bne_self_eq_false, Bool.false_or, Bool.and_eq_true, List.all_eq_true] at hinside
        exact nodeless_of_isNodeless (hinside.1.2 (key, child) (Fields.mem_of_get? hchild))
    | _ => cases hkind

section HoistedNames

variable {items : List Value} {tag : String} {fields : Fields}

theorem ofItems_eq_nil (hitems : ∀ item ∈ items, item.hoistedNames = .ok []) :
    hoistedNames.ofItems items = .ok [] := by
  induction items with
  | nil => rfl
  | cons item rest ih =>
    rw [hoistedNames.ofItems, hitems item List.mem_cons_self,
      ih fun other hother => hitems other (List.mem_cons_of_mem item hother)]
    rfl

theorem ofFields_eq_nil (hfields : ∀ entry ∈ fields, entry.2.hoistedNames = .ok []) :
    hoistedNames.ofFields fields = .ok [] := by
  induction fields with
  | nil => rfl
  | cons entry rest ih =>
    rw [hoistedNames.ofFields, hfields entry List.mem_cons_self,
      ih fun other hother => hfields other (List.mem_cons_of_mem entry hother)]
    rfl

theorem hoistedNames_of_nodeless {value : Value} (hnodeless : value.Nodeless) :
    value.hoistedNames = .ok [] := by
  cases value with
  | array items =>
    rw [hoistedNames]
    refine ofItems_eq_nil fun item hitem => ?_
    obtain ⟨index, hindex⟩ := List.mem_iff_getElem?.1 hitem
    have hsmaller := size_lt_of_mem_array hitem
    exact hoistedNames_of_nodeless (hnodeless.child (.item index) hindex)
  | node => cases hnodeless [] _ rfl
  | _ => rfl
termination_by value.size

theorem hoistedNames_of_other (hvariable : Kind.ofTag tag ≠ .variableDeclaration)
    (hfunction : Kind.ofTag tag ≠ .functionDeclaration) :
    (Value.node tag fields).hoistedNames = hoistedNames.ofFields fields := by
  rw [hoistedNames]
  split
  · rename_i hkind
    exact absurd hkind hvariable
  · rename_i hkind
    exact absurd hkind hfunction
  · rfl

/-- A literal declares nothing. -/
theorem hoistedNames_of_literal {literal : Value} (horderly : literal.Orderly)
    (hkind : literal.kind = .literal) : literal.hoistedNames = .ok [] := by
  cases literal with
  | node tag fields =>
    have hliteral : Kind.ofTag tag = .literal := hkind
    rw [hoistedNames_of_other (by rw [hliteral]; decide) (by rw [hliteral]; decide)]
    refine ofFields_eq_nil fun entry hentry => hoistedNames_of_nodeless ?_
    exact horderly.literals [] _ rfl hkind _ _ (horderly.child?_of_mem hentry)
  | _ => cases hkind

theorem ofFields_set {old new : Value} (hold : Fields.get? fields key = some old)
    (hsame : new.hoistedNames = old.hoistedNames) :
    hoistedNames.ofFields (Fields.set fields key new) = hoistedNames.ofFields fields := by
  induction fields with
  | nil => cases hold
  | cons entry rest ih =>
    obtain ⟨name, value⟩ := entry
    rw [Fields.get?, List.lookup_cons] at hold
    rw [Fields.set, Entries.put]
    by_cases hname : name = key
    · subst hname
      rw [beq_self_eq_true] at hold
      cases hold
      rw [if_pos (beq_self_eq_true name), hoistedNames.ofFields, hoistedNames.ofFields, hsame]
    · rw [beq_false_of_ne (Ne.symm hname)] at hold
      rw [beq_false_of_ne hname, if_neg Bool.false_ne_true, hoistedNames.ofFields,
        hoistedNames.ofFields]
      exact congrArg _ (funext fun _ => congrArg (· >>= _) (ih hold))

theorem ofItems_follows {others : List Value}
    (hitems : List.Forall₂ (fun old new => Follows (List.Forall₂ roles.Renames) old.hoistedNames
      new.hoistedNames) items others) :
    Follows (List.Forall₂ roles.Renames) (hoistedNames.ofItems items)
      (hoistedNames.ofItems others) := by
  induction hitems with
  | nil => exact .pure .nil
  | cons hfirst _ ih =>
    rw [hoistedNames.ofItems, hoistedNames.ofItems]
    exact hfirst.bind fun here hereNew hhere =>
      ih.bind fun rest restNew hrest => .pure (List.rel_append hhere hrest)

variable {others : Fields} {outer inner : Roles} {enters : String → Bool}
  {arguments : Option Value}

theorem ofFields_follows
    (hfields : List.Forall₂ (fun old new => Follows (List.Forall₂ roles.Renames)
      old.2.hoistedNames new.2.hoistedNames) fields others) :
    Follows (List.Forall₂ roles.Renames) (hoistedNames.ofFields fields)
      (hoistedNames.ofFields others) := by
  induction hfields with
  | nil => exact .pure .nil
  | cons hfirst _ ih =>
    rw [hoistedNames.ofFields, hoistedNames.ofFields]
    exact hfirst.bind fun here hereNew hhere =>
      ih.bind fun rest restNew hrest => .pure (List.rel_append hhere hrest)

/-- The arguments of a call of `require` that are replaced declare nothing, nor do those that
take their place. -/
theorem hoistedNames_of_replaced {old replaced : Value}
    (horderly : (Value.node tag fields).Orderly)
    (hinside : Plan.GoesInside registry outer (.node tag fields) inner enters arguments)
    (hold : Fields.get? fields "arguments" = some old) (hreplaced : arguments = some replaced) :
    old.hoistedNames = .ok [] ∧ replaced.hoistedNames = .ok [] := by
  rcases hinside.arguments_eq with ⟨module, hrequires, harguments⟩ | ⟨hnone, -⟩
  · obtain ⟨callee, hcall, -⟩ := requiresAt_nil_iff.1 hrequires
    obtain ⟨literal, hliteral, hkind, -⟩ := hcall.argument
    cases hliteral.symm.trans hold
    cases harguments.symm.trans hreplaced
    have horderly : literal.Orderly :=
      (horderly.child (.field "arguments") hliteral).child (.item 0) rfl
    refine ⟨ofItems_eq_nil fun item hitem => ?_, rfl⟩
    rw [List.mem_singleton.1 hitem]
    exact hoistedNames_of_literal horderly hkind
  · cases hnone.symm.trans hreplaced

/-- The names declared in the renamed fields of a node, if they are known for each field that
is not replaced. -/
theorem ofFields_follows_of_inside (horderly : (Value.node tag fields).Orderly)
    (hinside : Plan.GoesInside registry outer (.node tag fields) inner enters arguments)
    (hwithin : outer.Within roles)
    (hfields : Fields.Related (FieldRenamesTo registry inner enters arguments) fields others)
    (hrevised : ∀ entry ∈ fields, ∀ new, RevisedWithin registry roles entry.2 new →
      Follows (List.Forall₂ roles.Renames) entry.2.hoistedNames new.hoistedNames) :
    Follows (List.Forall₂ roles.Renames) (hoistedNames.ofFields fields)
      (hoistedNames.ofFields others) := by
  refine ofFields_follows ?_
  have hmem := (List.forall₂_and_left fields others).2 ⟨fun _ hentry => hentry, hfields⟩
  refine hmem.imp fun old new hfield => ?_
  obtain ⟨hentry, -, hfield⟩ := hfield
  cases hreplaced : arguments.filter fun _ => old.1 == "arguments" with
  | none =>
    exact hrevised old hentry new.2
      (.of_fieldRenamesTo (hinside.inside.within.trans hwithin) hreplaced hfield)
  | some replaced =>
    obtain ⟨harguments, hkey⟩ := Option.filter_eq_some_iff.1 hreplaced
    rw [FieldRenamesTo, hreplaced] at hfield
    replace hfield : new.2 = replaced := hfield
    have hchild := horderly.child?_of_mem hentry
    rw [beq_iff_eq.1 hkey] at hchild
    obtain ⟨hold, hnew⟩ := hoistedNames_of_replaced horderly hinside hchild harguments
    rw [hfield, hold, hnew]
    exact .pure .nil

end HoistedNames

/-- The names declared in renamed statements. -/
theorem hoistedNames_follows {before after : Value}
    (hrevised : RevisedWithin registry roles before after) (horderly : before.Orderly) :
    Follows (List.Forall₂ roles.Renames) before.hoistedNames after.hoistedNames := by
  have hkept : Follows (List.Forall₂ roles.Renames) before.hoistedNames before.hoistedNames :=
    fun names hnames => ⟨names, hnames, Roles.Renames.forall₂_refl roles names⟩
  obtain ⟨outer, hwithin, hrename⟩ := id hrevised
  cases hrename.renameStep with
  | idle | leaf | keep => exact hkept
  | @refer tag fields text role hkind htext =>
    have hother : ∀ fields, (Value.node tag fields).hoistedNames = hoistedNames.ofFields fields :=
      fun fields => hoistedNames_of_other (by rw [hkind]; decide) (by rw [hkind]; decide)
    rw [hother] at hkept
    have hset : hoistedNames.ofFields (Fields.set fields "name" (.text role.word)) =
        hoistedNames.ofFields fields := ofFields_set htext rfl
    rw [hother, hother, hset]
    exact hkept
  | @items items others inner hinside hitems =>
    rw [hoistedNames, hoistedNames]
    refine ofItems_follows ?_
    have hmem := (List.forall₂_and_left items others).2 ⟨fun _ hitem => hitem, hitems⟩
    refine hmem.imp fun old new hitem => ?_
    obtain ⟨index, hindex⟩ := List.mem_iff_getElem?.1 hitem.1
    have hsmaller := size_lt_of_mem_array hitem.1
    exact hoistedNames_follows ⟨inner, hinside.within.trans hwithin, hitem.2⟩
      (horderly.child (.item index) hindex)
  | @fields tag fields others inner enters arguments hinside hfields =>
    have hnames : Follows (List.Forall₂ roles.Renames) (hoistedNames.ofFields fields)
        (hoistedNames.ofFields others) := by
      refine ofFields_follows_of_inside horderly hinside hwithin hfields
        fun entry hentry new hnew => ?_
      have hchild := horderly.child?_of_mem hentry
      have hsmaller := size_lt_of_child? hchild
      exact hoistedNames_follows hnew (horderly.child _ hchild)
    by_cases hvariable : Kind.ofTag tag = .variableDeclaration
    · rw [hoistedNames, hoistedNames, hvariable]
      exact declaredNames_follows hrevised
    by_cases hfunction : Kind.ofTag tag = .functionDeclaration
    · rw [hoistedNames, hoistedNames, hfunction]
      refine (boundNamesAt_follows hrevised rfl).bind fun own ownNew hown => ?_
      exact hnames.bind fun names news hnames => .pure (List.rel_append hown hnames)
    · rw [hoistedNames_of_other hvariable hfunction, hoistedNames_of_other hvariable hfunction]
      exact hnames
termination_by before.size

end Value

end Debundle
