import Debundle.Proofs.Rename.Idempotence

/-!
# What a renaming counts

A renaming counts the references that it renames and the calls of `require` that it meets.
Each such call has a callee that is renamed too, so there are no more calls than references;
and a value is rebuilt exactly if a reference in it was renamed.
-/

namespace Debundle

open Attempt Renaming

namespace Tally

/-- The calls of `require` that were met, with a known module or not. -/
def calls (tally : Tally) : Nat :=
  tally.rewritten + tally.unresolved.length

theorem renamed_append (left right : Tally) :
    (left ++ right).renamed = left.renamed + right.renamed :=
  rfl

theorem calls_append (left right : Tally) :
    (left ++ right).calls = left.calls + right.calls := by
  have hunresolved : (left ++ right).unresolved = left.unresolved ++ right.unresolved := rfl
  rw [calls, calls, calls, rewritten_append, hunresolved, List.length_append]
  omega

theorem empty_append (tally : Tally) : ({} : Tally) ++ tally = tally := by
  obtain ⟨renamed, rewritten, unresolved⟩ := tally
  show Tally.mk (0 + renamed) (0 + rewritten) ([] ++ unresolved) = _
  rw [Nat.zero_add, Nat.zero_add, List.nil_append]

/-- The tally accounts for an edit: there are no more calls than references, and where a
reference was renamed the edit is a change.  If it does so fully, nothing else is changed. -/
structure AccountsFor {α : Type} (fully : Prop) (tally : Tally) (edit : Edit α) : Prop where
  calls_le : tally.calls ≤ tally.renamed
  renamed_eq_zero : edit.isKept = true → tally.renamed = 0
  isKept : fully → tally.renamed = 0 → edit.isKept = true

namespace AccountsFor

variable {α β : Type} {fully : Prop} {here below : Tally} {head : Edit α}

theorem kept : AccountsFor fully {} (Edit.kept : Edit α) :=
  ⟨Nat.le_refl 0, fun _ => rfl, fun _ _ => rfl⟩

theorem map (haccounts : AccountsFor fully here head) (f : α → β) :
    AccountsFor fully here (head.map f) := by
  have hkept : (head.map f).isKept = head.isKept := by cases head <;> rfl
  constructor
  · exact haccounts.calls_le
  · rw [hkept]
    exact haccounts.renamed_eq_zero
  · rw [hkept]
    exact haccounts.isKept

theorem cons {tail : Edit (List α)} (hhead : AccountsFor fully here head)
    (htail : AccountsFor fully below tail) (old : α) (rest : List α) :
    AccountsFor fully (here ++ below) (head.cons tail old rest) := by
  have hkept : (head.cons tail old rest).isKept = (head.isKept && tail.isKept) := by
    cases head <;> cases tail <;> rfl
  constructor
  · rw [calls_append, renamed_append]
    exact Nat.add_le_add hhead.calls_le htail.calls_le
  · rw [hkept, Bool.and_eq_true]
    rintro ⟨hkeptHead, hkeptTail⟩
    rw [renamed_append, hhead.renamed_eq_zero hkeptHead, htail.renamed_eq_zero hkeptTail]
  · intro hfully hrenamed
    rw [renamed_append, Nat.add_eq_zero_iff] at hrenamed
    rw [hkept, hhead.isKept hfully hrenamed.1, htail.isKept hfully hrenamed.2, Bool.and_true]

theorem consField {head : Edit Value} {tail result : Edit Fields} {key : String} {old : Value}
    {rest : Fields} (hhead : AccountsFor fully here head) (htail : AccountsFor fully below tail)
    (hresult : head.consField tail key old rest = .ok result) :
    AccountsFor fully (here ++ below) result := by
  simp only [Edit.consField] at hresult
  split at hresult
  · cases hresult
  · cases hresult
    exact (hhead.map _).cons htail _ _

/-- A call that is counted with its callee is accounted for fully. -/
theorem call {own : Tally} (haccounts : AccountsFor fully here head) (hrenamed : own.renamed = 0)
    (hcalls : own.calls = 1) (hcallee : here.calls < here.renamed) :
    AccountsFor True (own ++ here) head := by
  constructor
  · rw [calls_append, renamed_append]
    omega
  · intro hkept
    rw [renamed_append, hrenamed, haccounts.renamed_eq_zero hkept]
  · intro _ hnone
    rw [renamed_append] at hnone
    omega

end AccountsFor

end Tally

namespace Plan

variable {registry : Registry} {roles inner : Roles} {tag : String} {fields : Fields}
  {enters : String → Bool} {arguments : Option Value} {own : Tally}

/-- A plan counts one call of `require` at a node, whose callee it enters. -/
structure CountsCall (roles : Roles) (node : Value) (inner : Roles) (enters : String → Bool)
    (arguments : Option Value) (own : Tally) : Prop where
  callsRequire : CallsRequire roles node
  inner_eq : inner = roles
  enters_callee : enters "callee" = true
  renamed_eq : own.renamed = 0
  calls_eq : own.calls = 1
  rewritten_eq : own.rewritten = arguments.isSome.toNat

theorem ofCall_counts {call : Value}
    (hplan : ofCall registry roles call = .ok (.enter inner enters arguments own)) :
    (arguments = none ∧ own = {}) ∨ CountsCall roles call inner enters arguments own := by
  simp only [ofCall, bind_eq_ok_iff] at hplan
  obtain ⟨argument?, hargument, hplan⟩ := hplan
  cases argument? with
  | none =>
    cases hplan
    exact .inl ⟨rfl, rfl⟩
  | some id =>
    obtain ⟨callee, name, -, hcallee, hkind, hname, hrole, -⟩ := requireArgument?_eq_some hargument
    simp only [bind_eq_ok_iff] at hplan
    obtain ⟨module?, -, hplan⟩ := hplan
    have hcalls : CallsRequire roles call := ⟨callee, name, hcallee, hkind, hname, hrole⟩
    cases module? with
    | some module =>
      cases hplan
      exact .inr ⟨hcalls, rfl, rfl, rfl, rfl, rfl⟩
    | none =>
      cases hplan
      exact .inr ⟨hcalls, rfl, rfl, rfl, rfl, rfl⟩

/-- Where the renaming goes on inside a node it counts nothing at the node itself, or one
call of `require`. -/
theorem ofNode_counts
    (hplan : ofNode registry roles (.node tag fields) = .ok (.enter inner enters arguments own)) :
    (arguments = none ∧ own = {}) ∨
      CountsCall roles (.node tag fields) inner enters arguments own := by
  by_cases hcall : Kind.ofTag tag = .callExpression
  · simp only [ofNode, Value.kind, hcall] at hplan
    exact ofCall_counts hplan
  · exact .inl (ofNode_of_other hcall hplan).2

end Plan

namespace Value

variable {registry : Registry} {roles inner : Roles} {enters : String → Bool}
  {arguments : Option Value}

/-- No node in the value has two fields of one name. -/
def FieldsDiffer (value : Value) : Prop :=
  ∀ position tag fields, value.at? position = some (.node tag fields) →
    (Fields.keys fields).Nodup

variable {value callee : Value} {tally : Tally} {edit : Edit Value} {fields : Fields}
  {name : String} {role : Role}

theorem FieldsDiffer.child {child : Value} (hdiffer : value.FieldsDiffer) (step : Step)
    (hchild : value.child? step = some child) : child.FieldsDiffer := by
  intro position tag fields hnode
  exact hdiffer (step :: position) tag fields (by rw [at?_cons, hchild, Option.bind_some, hnode])

/-- Induction over a value in which no node has two fields of one name. -/
theorem FieldsDiffer.induction {motive : Value → Prop}
    (hleaf : ∀ value, value.isBranch = false → motive value)
    (harray : ∀ items, (∀ item ∈ items, motive item) → motive (.array items))
    (hnode : ∀ tag fields, (Fields.keys fields).Nodup → (∀ entry ∈ fields, motive entry.2) →
      motive (.node tag fields)) {value : Value} (hdiffer : value.FieldsDiffer) :
    motive value := by
  cases value with
  | array items =>
    refine harray items fun item hitem => ?_
    obtain ⟨index, hindex⟩ := List.mem_iff_getElem?.1 hitem
    have hsmaller := size_lt_of_mem_array hitem
    exact (hdiffer.child (.item index) hindex).induction hleaf harray hnode
  | node tag fields =>
    have hnodup := hdiffer [] tag fields rfl
    refine hnode tag fields hnodup fun entry hentry => ?_
    have hchild : (Value.node tag fields).child? (.field entry.1) = some entry.2 :=
      Fields.get?_of_mem hnodup hentry
    have hsmaller := size_lt_of_child? hchild
    exact (hdiffer.child _ hchild).induction hleaf harray hnode
  | _ => exact hleaf _ rfl
termination_by value.size

/-- The tally of a renaming of the value accounts for what the renaming does. -/
def IsAccountedFor (registry : Registry) (value : Value) : Prop :=
  ∀ roles edit tally, value.rename registry roles = .ok (edit, tally) →
    tally.AccountsFor True edit

theorem renameItems_accounts {items : List Value} {edit : Edit (List Value)}
    (hitems : ∀ item ∈ items, IsAccountedFor registry item)
    (hrename : rename.renameItems registry roles items = .ok (edit, tally)) :
    tally.AccountsFor True edit := by
  induction items generalizing edit tally with
  | nil =>
    cases hrename
    exact .kept
  | cons item rest ih =>
    simp only [rename.renameItems, bind_eq_ok_iff, pure_eq_ok_iff, Prod.mk.injEq] at hrename
    obtain ⟨⟨head, here⟩, hhead, ⟨tail, below⟩, htail, rfl, rfl⟩ := hrename
    have haccounts := hitems item List.mem_cons_self _ _ _ hhead
    exact haccounts.cons (ih (fun other hother => hitems other (.tail _ hother)) htail) _ _

/-- Replaced arguments are a change that is counted elsewhere. -/
theorem renameField_accounts {key : String} (hvalue : IsAccountedFor registry value)
    (hrename : renameField registry roles enters arguments key value = .ok (edit, tally)) :
    tally.AccountsFor (arguments = none) edit := by
  rw [renameField] at hrename
  split at hrename
  · rename_i replaced hreplaced
    cases hrename
    refine ⟨Nat.le_refl 0, fun hkept => absurd hkept (by simp [Edit.isKept]), fun hnone => ?_⟩
    simp [hnone] at hreplaced
  · split at hrename
    · obtain ⟨hcalls, hrenamed, hkept⟩ := hvalue _ _ _ hrename
      exact ⟨hcalls, hrenamed, fun _ => hkept trivial⟩
    · cases hrename
      exact .kept

theorem renameFields_accounts {edit : Edit Fields}
    (hfields : ∀ entry ∈ fields, IsAccountedFor registry entry.2)
    (hrename : rename.renameFields registry roles enters arguments fields = .ok (edit, tally)) :
    tally.AccountsFor (arguments = none) edit := by
  induction fields generalizing edit tally with
  | nil =>
    cases hrename
    exact .kept
  | cons entry rest ih =>
    obtain ⟨key, value⟩ := entry
    simp only [renameFields_cons, bind_eq_ok_iff, pure_eq_ok_iff, Prod.mk.injEq] at hrename
    obtain ⟨⟨head, here⟩, hhead, ⟨tail, below⟩, htail, result, hresult, rfl, rfl⟩ := hrename
    have haccounts := renameField_accounts (hfields _ List.mem_cons_self) hhead
    exact haccounts.consField (ih (fun other hother => hfields other (.tail _ hother)) htail)
      hresult

/-- A callee with the role of `require` is renamed. -/
theorem rename_callee (hkind : callee.kind = .identifier)
    (hname : callee.lookup "name" = some (.text name)) (hrole : roles.role? name = some role)
    (hrename : callee.rename registry roles = .ok (edit, tally)) : tally = { renamed := 1 } := by
  cases renameRun hrename with
  | idle hempty => simp [Roles.role?_of_isEmpty hempty] at hrole
  | leaf hleaf => cases callee <;> simp [isBranch, kind] at hleaf hkind
  | keep hplan => simp [(Plan.ofNode_eq_keep hplan).2 name hname hkind] at hrole
  | refer => rfl
  | items => simp [kind] at hkind
  | fields hplan => exact absurd hkind (Plan.ofNode_eq_enter hplan).kind

/-- Where the callee is a reference, one more reference is renamed than calls are counted
inside. -/
theorem renameFields_calls_lt {edit : Edit Fields}
    (hfields : ∀ entry ∈ fields, IsAccountedFor registry entry.2)
    (henters : enters "callee" = true) (hcallee : Fields.get? fields "callee" = some callee)
    (hkind : callee.kind = .identifier) (hname : callee.lookup "name" = some (.text name))
    (hrole : roles.role? name = some role)
    (hrename : rename.renameFields registry roles enters arguments fields = .ok (edit, tally)) :
    tally.calls < tally.renamed := by
  induction fields generalizing edit tally with
  | nil => cases hcallee
  | cons entry rest ih =>
    obtain ⟨key, value⟩ := entry
    simp only [renameFields_cons, bind_eq_ok_iff, pure_eq_ok_iff, Prod.mk.injEq] at hrename
    obtain ⟨⟨head, here⟩, hhead, ⟨tail, below⟩, htail, result, -, rfl, rfl⟩ := hrename
    have hrest : ∀ entry ∈ rest, IsAccountedFor registry entry.2 :=
      fun other hother => hfields other (.tail _ hother)
    rw [Tally.calls_append, Tally.renamed_append]
    by_cases hkey : key = "callee"
    · subst hkey
      have hvalue : value = callee := by simpa [Fields.get?] using hcallee
      subst hvalue
      have hrename : value.rename registry roles = .ok (head, here) := by
        have hnone : (arguments.filter fun _ => "callee" == "arguments") = none := by
          cases arguments <;> simp
        rwa [renameField, hnone, henters] at hhead
      have hhere : here = { renamed := 1 } := rename_callee hkind hname hrole hrename
      have hbelow := (renameFields_accounts hrest htail).calls_le
      rw [hhere]
      exact Nat.add_lt_add_of_lt_of_le Nat.zero_lt_one hbelow
    · have hhere := (renameField_accounts (hfields _ List.mem_cons_self) hhead).calls_le
      have hother : Fields.get? rest "callee" = some callee := by
        simpa [Fields.get?, List.lookup_cons, beq_false_of_ne (Ne.symm hkey)] using hcallee
      exact Nat.add_lt_add_of_le_of_lt hhere (ih hrest hother htail)

theorem isAccountedFor_node {tag : String}
    (hfields : ∀ entry ∈ fields, IsAccountedFor registry entry.2) :
    IsAccountedFor registry (.node tag fields) := by
  intro roles edit tally hrename
  cases renameRun hrename with
  | idle => exact .kept
  | leaf => exact .kept
  | keep => exact .kept
  | refer => exact ⟨Nat.zero_le 1, fun hkept => Bool.noConfusion hkept, fun _ hnone =>
    absurd hnone Nat.one_ne_zero⟩
  | @fields _ _ inner _ _ own below inside hplan hrenamed =>
    have haccounts := renameFields_accounts hfields hrenamed
    rcases Plan.ofNode_counts hplan with ⟨rfl, rfl⟩ | hcounts
    · rw [Tally.empty_append]
      obtain ⟨hcalls, hzero, hkept⟩ := haccounts.map (Value.node tag)
      exact ⟨hcalls, hzero, fun _ => hkept rfl⟩
    · obtain ⟨callee, name, hcallee, hkind, hname, hrole⟩ := hcounts.callsRequire
      refine (haccounts.map (Value.node tag)).call hcounts.renamed_eq hcounts.calls_eq ?_
      rw [hcounts.inner_eq] at hrenamed
      exact renameFields_calls_lt hfields hcounts.enters_callee hcallee hkind hname hrole hrenamed

/-- Every tally accounts for the edit that it comes with. -/
theorem FieldsDiffer.isAccountedFor (hdiffer : value.FieldsDiffer) :
    IsAccountedFor registry value := by
  refine hdiffer.induction (fun value hleaf => ?_) (fun items hitems => ?_)
    (fun tag fields _ hfields => isAccountedFor_node hfields)
  · intro roles edit tally hrename
    cases renameRun hrename with
    | idle => exact .kept
    | leaf => exact .kept
    | _ => simp [isBranch] at hleaf
  · intro roles edit tally hrename
    cases renameRun hrename with
    | idle => exact .kept
    | leaf => exact .kept
    | items _ _ hrenamed => exact (renameItems_accounts hitems hrenamed).map _

end Value

end Debundle
