import Debundle.Module.Table
import Debundle.Proofs.Scope.Names
import Debundle.Proofs.Script.Limits

/-!
# Naming returns

The dotted path of a well-formed value is a text, so every export of a well-formed script
can be compared and claimed.  Naming fails only at a literal that is written as a step of
a path and is too long for that.
-/

namespace Debundle

variable {allowed : Fault → Prop}

/-- A step returns a text, or fails with one of the faults that are allowed. -/
def ReturnsText (allowed : Fault → Prop) (step : Except Fault Value) : Prop :=
  (∃ text, step = .ok (.text text)) ∨ ∃ fault, allowed fault ∧ step = .error fault

namespace ReturnsText

variable {α : Type} {step : Except Fault Value} {next : Value → Except Fault α}

theorem text (content : String) : ReturnsText allowed (.ok (.text content)) :=
  .inl ⟨content, rfl⟩

theorem bind (hstep : ReturnsText allowed step)
    (hnext : ∀ content, ReturnsOr allowed (next (.text content))) :
    ReturnsOr allowed (step >>= next) := by
  rcases hstep with ⟨content, rfl⟩ | ⟨fault, hfault, rfl⟩
  · exact hnext content
  · exact .inr ⟨fault, hfault, rfl⟩

theorem bindText {next : Value → Except Fault Value} (hstep : ReturnsText allowed step)
    (hnext : ∀ content, ReturnsText allowed (next (.text content))) :
    ReturnsText allowed (step >>= next) := by
  rcases hstep with ⟨content, rfl⟩ | ⟨fault, hfault, rfl⟩
  · exact hnext content
  · exact .inr ⟨fault, hfault, rfl⟩

end ReturnsText

namespace Value

variable {slot : Slot} {tag key : String} {fields : Fields} {value : Value}

theorem name_returnsText (hfills : value.fills slot = true) (hkind : value.kind = .identifier) :
    ReturnsText allowed value.name := by
  cases value with
  | node tag fields =>
    obtain ⟨content, hget⟩ := exists_name hfills hkind
    exact .inl ⟨content, name_eq_ok hget⟩
  | _ => cases hkind

theorem literalStep_returnsText (hallows : value.Allows literalStep allowed)
    (hkind : value.kind = .literal) : ReturnsText allowed value.constant.literalStep := by
  rcases hallows.self hkind with ⟨result, hresult⟩ | herror
  · rw [hresult]
    cases hconstant : value.constant with
    | int integer =>
      rw [hconstant, literalStep] at hresult
      split at hresult <;> cases hresult
      exact .text _
    | _ =>
      rw [hconstant] at hresult
      cases hresult
      exact .text _
  · exact .inr herror

/-- The path of a well-formed value is a text. -/
theorem path_returnsText (value : Value) {slot : Slot} (hfills : value.fills slot = true)
    (hallows : value.Allows literalStep allowed) : ReturnsText allowed value.path := by
  rw [path]
  split
  · -- A function is named by its own name, if it has one.
    split
    · rename_i id hid
      split
      · rename_i hidentifier
        cases value with
        | node tag fields => exact name_returnsText (fills_field hfills hid) hidentifier
        | _ => contradiction
      · exact .text ""
    · exact .text ""
  · rename_i hkind
    exact literalStep_returnsText hallows hkind
  · rename_i hkind
    exact name_returnsText hfills hkind
  · rename_i hkind
    cases value with
    | node tag fields =>
      simp only []
      apply ReturnsText.bindText
      · split
        · exact .text ""
        · rename_i owner howner
          have hget := lookup_of_part? howner
          have hchild : (Value.node tag fields).child? (.field "object") = some owner.value := hget
          split
          · split
            · rename_i hidentifier
              exact name_returnsText (fills_field hfills hget) hidentifier
            · exact .text ""
          · have hsmaller := owner.smaller
            exact path_returnsText owner.value (fills_field hfills hget) (hallows.child hchild)
      · intro head
        apply ReturnsText.bindText
        · split
          · exact .text ""
          · rename_i property hproperty
            have hget := lookup_of_part? hproperty
            have hchild :
                (Value.node tag fields).child? (.field "property") = some property.value := hget
            have hsmaller := property.smaller
            exact path_returnsText property.value (fills_field hfills hget) (hallows.child hchild)
        · intro step
          exact .text _
    | _ => cases hkind
  · exact .text ""
termination_by value.size

/-- The names that a well-formed node proposes. -/
theorem proposal_returns (hfills : (Value.node tag fields).fills slot = true)
    (hallows : (Value.node tag fields).Allows literalStep allowed) (found : List Value) :
    ReturnsOr allowed (proposal tag fields found) := by
  have hpath : ∀ key, ReturnsText allowed
      (((Value.node tag fields).lookup key).elim (.ok (.text "")) path) := by
    intro key
    cases hget : (Value.node tag fields).lookup key with
    | none => exact .text ""
    | some value =>
      have hchild : (Value.node tag fields).child? (.field key) = some value := hget
      exact path_returnsText value (fills_field hfills hget) (hallows.child hchild)
  simp only [proposal]
  split
  · apply (hpath "left").bind
    intro left
    apply ReturnsOr.bind (.ok left)
    intro path _
    split
    · apply (hpath "right").bind
      intro right
      exact .ok _
    · exact .ok found
  · exact .ok found

theorem exportNames_ofItems_returns {items : List Value}
    (hitems : ∀ item ∈ items, ∀ found, ReturnsOr allowed (item.exportNames found))
    (found : List Value) : ReturnsOr allowed (exportNames.ofItems items found) := by
  induction items generalizing found with
  | nil => exact .ok found
  | cons item rest ih =>
    apply (hitems item List.mem_cons_self found).bind
    intro inside _
    exact ih (fun other hother => hitems other (List.mem_cons_of_mem item hother)) inside

theorem exportNames_ofFields_returns {fields : List (String × Value)}
    (hfields : ∀ entry ∈ fields, ∀ found, ReturnsOr allowed (entry.2.exportNames found))
    (found : List Value) : ReturnsOr allowed (exportNames.ofFields fields found) := by
  induction fields generalizing found with
  | nil => exact .ok found
  | cons entry rest ih =>
    apply (hfields entry List.mem_cons_self found).bind
    intro inside _
    exact ih (fun other hother => hfields other (List.mem_cons_of_mem entry hother)) inside

/-- The exports of a well-formed value can be found. -/
theorem exportNames_returns (value : Value) {slot : Slot} (hfills : value.fills slot = true)
    (hallows : value.Allows literalStep allowed) (found : List Value) :
    ReturnsOr allowed (value.exportNames found) := by
  cases value with
  | array items =>
    apply exportNames_ofItems_returns
    intro item hitem
    obtain ⟨inner, -, hitems⟩ := fills_array_iff.1 hfills
    obtain ⟨index, hindex⟩ := List.mem_iff_getElem?.1 hitem
    have hchild : (Value.array items).child? (.item index) = some item := hindex
    have hsmaller := size_lt_of_mem_array hitem
    exact exportNames_returns item (hitems item hitem) (hallows.child hchild)
  | node tag fields =>
    apply (proposal_returns hfills hallows found).bind
    intro proposed _
    apply exportNames_ofFields_returns
    intro entry hentry
    have hget := (mem_fields_iff hfills).1 hentry
    have hchild : (Value.node tag fields).child? (.field entry.1) = some entry.2 := hget
    have hsmaller : entry.2.size < (Value.node tag fields).size := size_lt_of_lookup hget
    exact exportNames_returns entry.2 (fills_field hfills hget) (hallows.child hchild)
  | _ => exact .ok found
termination_by value.size

theorem primaryExport_returns (hfills : value.fills slot = true)
    (hallows : value.Allows literalStep allowed) : ReturnsOr allowed value.primaryExport := by
  rw [primaryExport]
  split
  · split
    · rename_i body hbody
      cases value with
      | node tag fields =>
        have hchild : (Value.node tag fields).child? (.field "body") = some body := hbody
        apply (exportNames_returns body (fills_field hfills hbody) (hallows.child hchild) []).bind
        intro names _
        exact .ok _
      | _ =>
        rename_i hfunction
        cases hfunction
    · exact .ok _
  · exact .ok _

end Value

/-- Modules can be named if their exports can be found. -/
theorem nameModules_returns {slots : List (Value × Nat)}
    (hslots : ∀ slot ∈ slots, ReturnsOr allowed slot.1.primaryExport) (registry : Registry) :
    ReturnsOr allowed (nameModules registry slots) := by
  induction slots generalizing registry with
  | nil => exact .ok _
  | cons slot rest ih =>
    obtain ⟨body, id⟩ := slot
    have hrest := ih fun other hother => hslots other (List.mem_cons_of_mem (body, id) hother)
    have hnamed : ReturnsOr allowed (do
        let candidate ← body.primaryExport
        let name := registry.nameFor id candidate
        let named ← nameModules (registry.claim id candidate) rest
        return (named.1, { id, body, candidate, name } :: named.2)) := by
      apply (hslots (body, id) List.mem_cons_self).bind
      intro candidate _
      apply (hrest (registry.claim id candidate)).bind
      intro named _
      exact .ok _
    cases body with
    | null => exact hrest registry
    | _ => exact hnamed

end Debundle
