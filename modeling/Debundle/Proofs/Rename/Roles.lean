import Debundle.Module.Role
import Debundle.Proofs.Attempt
import Debundle.Proofs.Tree.Equality
import Debundle.Proofs.Tree.Key

/-!
# Names as keys of roles

Names may be any values, but references are texts.  A text is the same as no value but
itself, so the roles of texts behave like a finite map whatever else is entered.
-/

namespace Debundle

namespace Roles

theorem role?_of_isEmpty {roles : Roles} (hempty : roles.isEmpty = true) (name : String) :
    roles.role? name = none := by
  simp only [isEmpty, List.isEmpty_iff] at hempty
  simp [role?, hempty]

theorem lookup_text_cons (key : Value) (held : Role) (rest : List (Value × Role))
    (name : String) :
    ((key, held) :: rest).lookup (.text name) =
      if key = .text name then some held else rest.lookup (.text name) := by
  rw [List.lookup_cons]
  by_cases hkey : key = .text name
  · rw [Value.text_beq_iff.2 hkey, if_pos hkey]
  · have hother : (Value.text name == key) = false := by
      rw [← Bool.not_eq_true, Value.text_beq_iff]
      exact hkey
    rw [hother, if_neg hkey]

theorem lookup_text_filter (entries : List (Value × Role)) (names : List Value)
    (name : String) (role : Role) :
    (entries.filter fun (key, _) => !names.contains key).lookup (.text name) = some role ↔
      entries.lookup (.text name) = some role ∧ Value.text name ∉ names := by
  induction entries with
  | nil => simp
  | cons entry rest ih =>
    obtain ⟨key, held⟩ := entry
    rw [List.filter_cons, lookup_text_cons]
    by_cases hkey : key = .text name
    · subst hkey
      by_cases hmem : Value.text name ∈ names
      · simp [Value.contains_text_iff.2 hmem, ih, hmem]
      · have hkept : names.contains (Value.text name) = false := by
          rw [← Bool.not_eq_true, Value.contains_text_iff]
          exact hmem
        simp [hkept, hmem, lookup_text_cons]
    · by_cases hdropped : names.contains key = true
      · simp [hdropped, hkey, ih]
      · simp [hdropped, hkey, ih, lookup_text_cons]

theorem lookup_text_put (entries : List (Value × Role)) (text name : String) (role : Role) :
    (Entries.put entries (.text text) role).lookup (.text name) =
      if name = text then some role else entries.lookup (.text name) := by
  induction entries with
  | nil => simp [Entries.put, lookup_text_cons, eq_comm]
  | cons entry rest ih =>
    obtain ⟨key, held⟩ := entry
    rw [Entries.put, lookup_text_cons]
    by_cases hkey : key = .text text
    · subst hkey
      rw [if_pos (Value.text_beq_iff.2 rfl), lookup_text_cons]
      by_cases hname : name = text
      · simp [hname]
      · simp [hname, Ne.symm hname]
    · have hother : ¬ (key == .text text) = true := fun hsame => hkey (Value.same_eq_text hsame)
      rw [if_neg hother, lookup_text_cons, ih]
      by_cases hname : key = .text name
      · subst hname
        have hne : name ≠ text := fun heq => hkey (by rw [heq])
        simp [hne]
      · simp [hname]

/-- The names that are declared anew lose their roles, and no others do. -/
theorem role?_without {roles inner : Roles} {names : List Value}
    (hinner : roles.without names = .ok inner) (name : String) (role : Role) :
    inner.role? name = some role ↔
      roles.role? name = some role ∧ Value.text name ∉ names := by
  simp only [without, Attempt.bind_eq_ok_iff, Attempt.pure_eq_ok_iff] at hinner
  obtain ⟨keys, hkeys, rfl⟩ := hinner
  have hsame : keys = names := by
    rw [Attempt.mapM_eq_ok_iff] at hkeys
    induction hkeys with
    | nil => rfl
    | cons hhead _ ih => rw [Value.eq_of_asKey hhead, ih]
  subst hsame
  exact lookup_text_filter roles.entries keys name role

end Roles

end Debundle
