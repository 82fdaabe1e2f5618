import Debundle.Proofs.Rename.Module
import Debundle.Proofs.Rename.PlanAgain

/-!
# Renaming twice

A renamed module is renamed to itself.  The scopes inside it declare the same names as
before, so the same roles hold everywhere, and a reference that got the word of its role has
no role any more, or the role of that word.
-/

namespace Debundle

open Attempt Renaming

theorem Roles.without_nil (roles : Roles) : roles.without [] = .ok roles := by
  simp [without]

theorem Tally.rewritten_append (left right : Tally) :
    (left ++ right).rewritten = left.rewritten + right.rewritten :=
  rfl

variable {head : Edit Value} {key tag : String} {old body : Value} {rest fields : Fields}

theorem Edit.consField_eq_ok {tail : Edit Fields}
    (hreserved : key = reservedKey → head.isKept = true) :
    ∃ result, head.consField tail key old rest = .ok result := by
  rw [consField, if_neg]
  · exact ⟨_, rfl⟩
  · rintro ⟨hkey, hchanged⟩
    cases hchanged.symm.trans (hreserved hkey)

theorem Edit.isKept_of_consField {tail result : Edit Fields}
    (hresult : head.consField tail key old rest = .ok result) (hkey : key = reservedKey) :
    head.isKept = true := by
  rw [← Bool.not_eq_false]
  intro hchanged
  rw [consField, if_pos ⟨hkey, hchanged⟩] at hresult
  cases hresult

namespace Value

variable {registry : Registry} {roles inner : Roles} {enters : String → Bool}

/-- A renaming leaves the value as it is, and points no call at a file. -/
def Settled (registry : Registry) (roles : Roles) (value : Value) : Prop :=
  ∃ edit tally, value.rename registry roles = .ok (edit, tally) ∧ edit.apply value = value ∧
    tally.rewritten = 0

/-- Whatever a renaming makes of the value is settled. -/
def Settles (registry : Registry) (roles : Roles) (value : Value) : Prop :=
  ∀ edit tally, value.rename registry roles = .ok (edit, tally) →
    Settled registry roles (edit.apply value)

/-- A renaming leaves the value of the field `key` as it is.  Under the reserved name it must
not even touch it. -/
def FieldSettled (registry : Registry) (roles : Roles) (enters : String → Bool) (key : String)
    (value : Value) : Prop :=
  ∃ edit tally, renameField registry roles enters none key value = .ok (edit, tally) ∧
    edit.apply value = value ∧ tally.rewritten = 0 ∧ (key = reservedKey → edit.isKept = true)

theorem rename_of_isEmpty (hempty : roles.isEmpty = true) (value : Value) :
    value.rename registry roles = .ok (.kept, {}) := by
  cases value <;> simp [rename, hempty]

theorem rename_array (hroles : roles.isEmpty = false) (items : List Value) :
    (Value.array items).rename registry roles =
      hoistedNames (.array items) >>= fun names => roles.without names >>= fun inner =>
        rename.renameItems registry inner items >>= fun result =>
          pure (result.1.map .array, result.2) := by
  rw [rename, hroles]
  rfl

variable {tag : String} {fields : Fields} {arguments : Option Value} {items : List Value}
  {tally : Tally}

theorem rename_node_of_enter {own : Tally} (hroles : roles.isEmpty = false)
    (hplan : Plan.ofNode registry roles (.node tag fields) =
      .ok (.enter inner enters arguments own)) :
    (Value.node tag fields).rename registry roles =
      rename.renameFields registry inner enters arguments fields >>= fun result =>
        pure (result.1.map (.node tag), own ++ result.2) := by
  rw [rename, hroles, hplan]
  rfl

theorem settled_of_isEmpty (hempty : roles.isEmpty = true) (value : Value) :
    Settled registry roles value :=
  ⟨.kept, {}, rename_of_isEmpty hempty value, rfl, rfl⟩

/-- The renamed items of a list are settled if each of them is. -/
theorem renameItems_again {edit : Edit (List Value)}
    (hitems : ∀ item ∈ items, Settles registry roles item)
    (hrename : rename.renameItems registry roles items = .ok (edit, tally)) :
    ∃ again count, rename.renameItems registry roles (edit.apply items) = .ok (again, count) ∧
      again.apply (edit.apply items) = edit.apply items ∧ count.rewritten = 0 := by
  induction items generalizing edit tally with
  | nil =>
    cases hrename
    exact ⟨.kept, {}, rfl, rfl, rfl⟩
  | cons item rest ih =>
    simp only [rename.renameItems, bind_eq_ok_iff, pure_eq_ok_iff, Prod.mk.injEq] at hrename
    obtain ⟨⟨head, here⟩, hhead, ⟨tail, below⟩, htail, rfl, -⟩ := hrename
    obtain ⟨first, counted, hfirst, hkept, hnone⟩ := hitems item List.mem_cons_self head here hhead
    obtain ⟨others, count, hothers, hothersKept, hothersNone⟩ :=
      ih (fun other hother => hitems other (List.mem_cons_of_mem item hother)) htail
    rw [Edit.apply_cons]
    refine ⟨first.cons others (head.apply item) (tail.apply rest), counted ++ count, ?_, ?_, ?_⟩
    · rw [rename.renameItems, hfirst, hothers]
      rfl
    · rw [Edit.apply_cons, hkept, hothersKept]
    · rw [Tally.rewritten_append, hnone, hothersNone]

/-- The renamed fields of a node are settled if each of them is. -/
theorem renameFields_again {edit : Edit Fields}
    (hfields : ∀ entry ∈ fields, ∀ head here,
      renameField registry roles enters arguments entry.1 entry.2 = .ok (head, here) →
      (entry.1 = reservedKey → head.isKept = true) →
      FieldSettled registry roles enters entry.1 (head.apply entry.2))
    (hrename : rename.renameFields registry roles enters arguments fields = .ok (edit, tally)) :
    ∃ again count,
      rename.renameFields registry roles enters none (edit.apply fields) = .ok (again, count) ∧
      again.apply (edit.apply fields) = edit.apply fields ∧ count.rewritten = 0 := by
  induction fields generalizing edit tally with
  | nil =>
    cases hrename
    exact ⟨.kept, {}, rfl, rfl, rfl⟩
  | cons entry rest ih =>
    obtain ⟨key, value⟩ := entry
    simp only [renameFields_cons, bind_eq_ok_iff, pure_eq_ok_iff, Prod.mk.injEq] at hrename
    obtain ⟨⟨head, here⟩, hhead, ⟨tail, below⟩, htail, result, hresult, rfl, -⟩ := hrename
    obtain ⟨first, counted, hfirst, hkept, hnone, hreserved⟩ :=
      hfields (key, value) List.mem_cons_self head here hhead (Edit.isKept_of_consField hresult)
    obtain ⟨others, count, hothers, hothersKept, hothersNone⟩ :=
      ih (fun other hother => hfields other (List.mem_cons_of_mem _ hother)) htail
    rw [Edit.apply_consField hresult]
    obtain ⟨again, hagain⟩ : ∃ again, first.consField others key (head.apply value)
      (tail.apply rest) = .ok again := Edit.consField_eq_ok hreserved
    refine ⟨again, counted ++ count, ?_, ?_, ?_⟩
    · rw [renameFields_cons, hfirst, ok_bind, hothers, ok_bind, hagain]
      rfl
    · rw [Edit.apply_consField hagain, hkept, hothersKept]
    · rw [Tally.rewritten_append, hnone, hothersNone]

/-- The path of a file in a call of `require` is settled. -/
theorem settled_requirePath (registry : Registry) (roles : Roles) (name : Value) :
    Settled registry roles (.array [requirePath name]) := by
  cases hroles : roles.isEmpty with
  | true => exact settled_of_isEmpty hroles _
  | false =>
    have hliteral : (requirePath name).rename registry roles = .ok (.kept, {}) := by
      rw [requirePath, rename, hroles]
      rfl
    refine ⟨.kept, {}, ?_, rfl, rfl⟩
    have hnames : hoistedNames (.array [requirePath name]) = .ok [] := rfl
    rw [rename_array hroles, hnames, ok_bind, Roles.without_nil, ok_bind,
      rename.renameItems, hliteral]
    rfl

/-- A field that was renamed is settled if its value is. -/
theorem fieldSettled_of_renameField {outer : Roles} {key : String} {value : Value}
    {head : Edit Value} {here : Tally}
    (hinside : Plan.GoesInside registry outer (.node tag fields) roles enters arguments)
    (hsettled : Settles registry roles value)
    (hrename : renameField registry roles enters arguments key value = .ok (head, here))
    (hreserved : key = reservedKey → head.isKept = true) :
    FieldSettled registry roles enters key (head.apply value) := by
  cases henters : enters key with
  | false =>
    refine ⟨.kept, {}, ?_, rfl, rfl, fun _ => rfl⟩
    rw [renameField, henters]
    rfl
  | true =>
    have hagain : ∀ value, renameField registry roles enters none key value =
        value.rename registry roles := by
      intro value
      rw [renameField, henters]
      rfl
    rw [FieldSettled, hagain]
    rw [renameField, henters] at hrename
    cases hreplaced : arguments.filter fun _ => key == "arguments" with
    | some replaced =>
      rw [hreplaced] at hrename
      cases hrename
      obtain ⟨harguments, hkey⟩ := Option.filter_eq_some_iff.1 hreplaced
      rcases hinside.arguments_eq with ⟨module, -, hpath⟩ | ⟨hnone, -⟩
      · cases hpath.symm.trans harguments
        obtain ⟨edit, tally, hedit, hkept, hnone⟩ := settled_requirePath registry roles module
        refine ⟨edit, tally, hedit, hkept, hnone, fun hself => ?_⟩
        rw [beq_iff_eq.1 hkey] at hself
        exact absurd hself (by decide)
      · cases hnone.symm.trans harguments
    | none =>
      rw [hreplaced] at hrename
      obtain ⟨edit, tally, hedit, hkept, hnone⟩ := hsettled head here hrename
      refine ⟨edit, tally, hedit, hkept, hnone, fun hself => ?_⟩
      cases head with
      | changed => cases hreserved hself
      | kept =>
        -- What was not touched is renamed by the same steps again.
        cases hedit.symm.trans hrename
        rfl

/-- A renamed reference is settled. -/
theorem settled_reference {role : Role} (hroles : roles.isEmpty = false)
    (hwords : roles.KeepsWords) (hkind : Kind.ofTag tag = .identifier) :
    Settled registry roles (.node tag (Fields.set fields "name" (.text role.word))) := by
  have hname : (Value.node tag (Fields.set fields "name" (.text role.word))).lookup "name" =
      some (.text role.word) := by
    rw [lookup_node, Fields.get?_set, if_pos rfl]
  have hplan : Plan.ofNode registry roles
      (.node tag (Fields.set fields "name" (.text role.word))) =
        .ok ((roles.role? role.word).elim .keep .refer) := by
    rw [Plan.ofNode]
    simp only [kind, hkind, hname]
  rw [Settled, rename, hroles, hplan]
  cases hrole : roles.role? role.word with
  | none => exact ⟨.kept, {}, rfl, rfl, rfl⟩
  | some other =>
    cases hwords role other hrole
    refine ⟨_, _, rfl, ?_, rfl⟩
    exact congrArg (Value.node tag) (Entries.put_put fields "name" _ _)

/-- An array that was renamed declares the names that it declared before. -/
theorem hoistedNames_again {others names : List Value} (horderly : (Value.array items).Orderly)
    (hnames : hoistedNames (.array items) = .ok names) (hinner : roles.without names = .ok inner)
    (hitems : List.Forall₂ (RenamesTo registry inner) items others) :
    hoistedNames (.array others) = .ok names := by
  have hfollows : Follows (List.Forall₂ inner.Renames) (hoistedNames.ofItems items)
      (hoistedNames.ofItems others) := by
    refine ofItems_follows ?_
    have hmem := (List.forall₂_and_left items others).2 ⟨fun _ hitem => hitem, hitems⟩
    refine hmem.imp fun old new hitem => ?_
    obtain ⟨index, hindex⟩ := List.mem_iff_getElem?.1 hitem.1
    exact hoistedNames_follows ⟨inner, .refl inner, hitem.2⟩ (horderly.child (.item index) hindex)
  obtain ⟨found, hfound, hrenames⟩ := hfollows names hnames
  have hsame : found = names := by
    refine Roles.eq_of_forall₂_renames hrenames fun text htext => ?_
    rw [Option.eq_none_iff_forall_ne_some]
    intro role hrole
    exact ((Roles.role?_without hinner text role).1 hrole).2 htext
  exact hsame ▸ hfound

/-- A renamed array is settled if its items are. -/
theorem settles_array (hroles : roles.isEmpty = false) (horderly : (Value.array items).Orderly)
    (hsettles : ∀ inner, inner.Within roles → ∀ item ∈ items, Settles registry inner item) :
    Settles registry roles (.array items) := by
  intro edit tally hrename
  rw [rename_array hroles] at hrename
  simp only [bind_eq_ok_iff, pure_eq_ok_iff, Prod.mk.injEq] at hrename
  obtain ⟨names, hnames, inner, hinner, ⟨inside, below⟩, hitems, rfl, -⟩ := hrename
  have hwithin : inner.Within roles :=
    fun name role hrole => ((Roles.role?_without hinner name role).1 hrole).1
  obtain ⟨again, count, hagain, hkept, hnone⟩ := renameItems_again (hsettles inner hwithin) hitems
  rw [Edit.apply_map]
  refine ⟨again.map .array, count, ?_, ?_, hnone⟩
  · rw [rename_array hroles, hoistedNames_again horderly hnames hinner (renameItems_eq_ok hitems),
      ok_bind, hinner, ok_bind, hagain]
    rfl
  · rw [Edit.apply_map, hkept]

/-- A renamed node is settled if its fields are: it is planned as it was before, but for a call
that already has its path. -/
theorem settles_node (hroles : roles.isEmpty = false) (hwords : roles.KeepsWords)
    (hsettles : ∀ inner, inner.Within roles → ∀ entry ∈ fields, Settles registry inner entry.2) :
    Settles registry roles (.node tag fields) := by
  intro edit tally hrename
  have hrenames : RenamesTo registry roles (.node tag fields) (edit.apply (.node tag fields)) :=
    ⟨edit, tally, hrename, rfl⟩
  rw [rename, hroles, if_neg Bool.false_ne_true, bind_eq_ok_iff] at hrename
  obtain ⟨plan, hplan, hrename⟩ := hrename
  obtain ⟨rfl, -⟩ | ⟨name, role, rfl, hkind, -⟩ | ⟨inner, enters, arguments, own, rfl, hinside⟩ :=
    Plan.ofNode_eq_ok hplan
  · cases hrename
    refine ⟨.kept, {}, ?_, rfl, rfl⟩
    rw [Edit.apply, rename, hroles, hplan]
    rfl
  · cases hrename
    exact settled_reference hroles hwords hkind
  · simp only [bind_eq_ok_iff, pure_eq_ok_iff, Prod.mk.injEq] at hrename
    obtain ⟨⟨inside, below⟩, hfields, rfl, -⟩ := hrename
    rw [Edit.apply_map] at hrenames ⊢
    obtain ⟨counted, hagainPlan, hcounted⟩ :=
      Plan.ofNode_again hwords hplan (renameFields_eq_ok hfields) hrenames
    obtain ⟨again, count, hagain, hkept, hnone⟩ := renameFields_again
      (fun entry hentry head here hhead hreserved => fieldSettled_of_renameField hinside
        (hsettles inner hinside.inside.within entry hentry) hhead hreserved) hfields
    refine ⟨again.map (.node tag), counted ++ count, ?_, ?_, ?_⟩
    · rw [rename_node_of_enter hroles hagainPlan, hagain]
      rfl
    · rw [Edit.apply_map, hkept]
    · rw [Tally.rewritten_append, hcounted, hnone]

/-- What was renamed is settled. -/
theorem settles_of_orderly {before : Value} {roles : Roles} (horderly : before.Orderly)
    (hwords : roles.KeepsWords) : Settles registry roles before := by
  cases hroles : roles.isEmpty with
  | true => exact fun edit _ _ => settled_of_isEmpty hroles _
  | false =>
    cases before with
    | array items =>
      refine settles_array hroles horderly fun inner hwithin item hitem => ?_
      obtain ⟨index, hindex⟩ := List.mem_iff_getElem?.1 hitem
      have hsmaller := size_lt_of_mem_array hitem
      exact settles_of_orderly (horderly.child (.item index) hindex) (hwords.within hwithin)
    | node tag fields =>
      refine settles_node hroles hwords fun inner hwithin entry hentry => ?_
      have hchild := horderly.child?_of_mem hentry
      have hsmaller := size_lt_of_child? hchild
      exact settles_of_orderly (horderly.child _ hchild) (hwords.within hwithin)
    | _ =>
      intro edit tally hrename
      cases hrename
      exact ⟨.kept, {}, rfl, rfl, rfl⟩
termination_by before.size

end Value

/-- How a module function is renamed, step by step. -/
theorem renameModule_of_rename {registry : Registry} {params : List Value} {roles : Roles}
    {edit : Edit Value} {tally : Tally}
    (hfunction : (Value.node tag fields).isFunctionModule = true)
    (hbody : Fields.get? fields "body" = some body)
    (hparams : ((Value.node tag fields).listAt "params").map (List.map Part.value) = .ok params)
    (hroles : Roles.ofParams params = .ok roles)
    (hedit : body.rename registry roles = .ok (edit, tally)) :
    renameModule registry (.node tag fields) = .ok {
      module := .changed (.node tag (Fields.set fields "body" (edit.apply body)))
      body := edit
      tally := some tally } := by
  obtain ⟨parts, hparts, rfl⟩ := map_eq_ok_iff.1 hparams
  simp only [renameModule, hfunction, Value.lookup_node, hbody, hparts, ok_bind, hroles, hedit]
  rfl

theorem isFunctionModule_set (hfunction : (Value.node tag fields).isFunctionModule = true)
    (hbody : body.isNull = false) :
    (Value.node tag (Fields.set fields "body" body)).isFunctionModule = true := by
  rw [Value.isFunctionModule, Bool.and_eq_true] at hfunction ⊢
  refine ⟨hfunction.1, Value.given?_isSome_iff.2 ⟨body, ?_, hbody⟩⟩
  rw [Value.lookup_node, Fields.get?_set, if_pos rfl]

/-- A renamed module function is renamed to itself, and no call in it is given a path again.
It is asked that a name that is the word of a role has no other role, that literals hold no
nodes, and that no node has two fields of one name. -/
theorem renameModule_idempotent {registry : Registry} {module : Value} {renamed : Renamed}
    {params : List (Part module)} {roles : Roles} (hfunction : module.isFunctionModule = true)
    (horderly : module.Orderly) (hparams : module.listAt "params" = .ok params)
    (hroles : Roles.ofParams (params.map Part.value) = .ok roles) (hwords : roles.KeepsWords)
    (hrename : renameModule registry module = .ok renamed) :
    ∃ again, renameModule registry (renamed.module.apply module) = .ok again ∧
      again.module.apply (renamed.module.apply module) = renamed.module.apply module ∧
      again.tally.map Tally.rewritten = some 0 := by
  obtain ⟨-, tag, fields, body, rfl, hbody⟩ := Value.isFunctionModule_cases hfunction
  have hvalues : ((Value.node tag fields).listAt "params").map (List.map Part.value) =
      .ok (params.map Part.value) := by
    rw [hparams]
    rfl
  simp only [renameModule, hfunction, Value.lookup_node, hbody, hparams, ok_bind, hroles,
    bind_eq_ok_iff, pure_eq_ok_iff] at hrename
  obtain ⟨⟨edit, tally⟩, hedit, rfl⟩ := hrename
  have hnull : (edit.apply body).isNull = false := by
    obtain ⟨held, hheld, hnull⟩ := Value.given?_isSome_iff.1 (Bool.and_eq_true_iff.1 hfunction).2
    cases hbody.symm.trans hheld
    have hrevised : Value.Revised registry body (edit.apply body) :=
      ⟨roles, edit, tally, hedit, rfl⟩
    rw [hrevised.isNull_eq, hnull]
  obtain ⟨again, count, hagain, hkept, hnone⟩ :=
    Value.settles_of_orderly (horderly.child (.field "body") hbody) hwords edit tally hedit
  have hbodyAgain : Fields.get? (Fields.set fields "body" (edit.apply body)) "body" =
      some (edit.apply body) := by
    rw [Fields.get?_set, if_pos rfl]
  have hparamsAgain :
      ((Value.node tag (Fields.set fields "body" (edit.apply body))).listAt "params").map
        (List.map Part.value) = .ok (params.map Part.value) := by
    rw [← hvalues, Value.listAt_map_value, Value.listAt_map_value, Value.lookup_node,
      Value.lookup_node, Fields.get?_set, if_neg (by decide)]
  refine ⟨_, renameModule_of_rename (isFunctionModule_set hfunction hnull) hbodyAgain hparamsAgain
    hroles hagain, ?_, congrArg some hnone⟩
  show Value.node tag (Fields.set (Fields.set fields "body" _) "body" _) = _
  rw [hkept]
  exact congrArg (Value.node tag) (Entries.put_put fields "body" _ _)

/-- The module function
`function (module, t, n) { var a = outer(id); return function (t) { return inner(t); }; }`. -/
def wordedModule (outer : String) (id : Value) (inner : String) : Value :=
  Build.function [Build.name "module", Build.name "t", Build.name "n"]
    [Build.declare (Build.name "a") (Build.call (Build.name outer) [id]),
      Build.giveBack (Build.function [Build.name "t"]
        [Build.giveBack (Build.call (Build.name inner) [Build.name "t"])])]

theorem renameModule_idempotent_worded :
    ∃ registry renamed params roles,
      (wordedModule "n" (Build.number 1) "module").isFunctionModule = true ∧
      (wordedModule "n" (Build.number 1) "module").Orderly ∧
      (wordedModule "n" (Build.number 1) "module").listAt "params" = .ok params ∧
      Roles.ofParams (params.map Part.value) = .ok roles ∧ roles.KeepsWords ∧
      renameModule registry (wordedModule "n" (Build.number 1) "module") = .ok renamed ∧
      renamed.module.apply (wordedModule "n" (Build.number 1) "module") =
        wordedModule "require" (requirePath (.text "Foo")) "module" ∧
      ∃ again, renameModule registry
          (renamed.module.apply (wordedModule "n" (Build.number 1) "module")) = .ok again ∧
        again.module.apply (renamed.module.apply (wordedModule "n" (Build.number 1) "module")) =
          renamed.module.apply (wordedModule "n" (Build.number 1) "module") ∧
        again.tally.map Tally.rewritten = some 0 := by
  have hresult : (renameModule { names := [(1, .text "Foo")] }
      (wordedModule "n" (Build.number 1) "module")).toOption.map
        (fun renamed => renamed.module.apply (wordedModule "n" (Build.number 1) "module")) =
      some (wordedModule "require" (requirePath (.text "Foo")) "module") := by
    decide +kernel
  obtain ⟨renamed, hrename, hmodule⟩ := of_toOption_map hresult
  obtain ⟨params, hparams, hvalues⟩ := Value.listAt_of_array
    (show (wordedModule "n" (Build.number 1) "module").lookup "params" = some (.array _) from rfl)
  have hroles : Roles.ofParams (params.map Part.value) =
      .ok ⟨[(.text "module", .module), (.text "t", .exports), (.text "n", .require)]⟩ := by
    rw [hvalues]
    rfl
  have hwords : Roles.KeepsWords
      ⟨[(.text "module", .module), (.text "t", .exports), (.text "n", .require)]⟩ := by
    intro role other hother
    cases role <;> cases hother
    rfl
  have horderly : (wordedModule "n" (Build.number 1) "module").Orderly :=
    Value.orderly_of_isOrderly (by decide)
  exact ⟨_, renamed, params, _, by decide, horderly, hparams, hroles, hwords, hrename, hmodule,
    renameModule_idempotent (by decide) horderly hparams hroles hwords hrename⟩

end Debundle
