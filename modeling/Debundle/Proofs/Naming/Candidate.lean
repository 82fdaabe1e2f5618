import Debundle.Naming.Candidate
import Debundle.Proofs.Attempt
import Debundle.Proofs.Naming.UniqueName

/-!
# Candidates are keys

A module's candidate for a name may be any value, but only values that can be looked up
in a table are ever proposed.
-/

namespace Debundle.Value

open Attempt

variable {tag : String} {fields : Fields} {found names : List Value}

theorem proposal_isKey (hnames : proposal tag fields found = .ok names)
    (hfound : ∀ name ∈ found, name.isKey = true) : ∀ name ∈ names, name.isKey = true := by
  simp only [proposal] at hnames
  split at hnames
  · rw [bind_eq_ok_iff] at hnames
    obtain ⟨left, -, hnames⟩ := hnames
    rw [bind_eq_ok_iff] at hnames
    obtain ⟨path, -, hnames⟩ := hnames
    split at hnames
    · simp only [bind_eq_ok_iff, pure_eq_ok_iff] at hnames
      obtain ⟨right, -, candidate, hcandidate, rfl⟩ := hnames
      intro name hname
      rcases List.mem_append.1 hname with hmem | hmem
      · exact hfound name hmem
      · rw [List.mem_singleton.1 hmem]
        exact uniqueName_isKey (isKey_of_asKey hcandidate)
    · cases hnames
      exact hfound
  · cases hnames
    exact hfound

mutual

/-- Every name that a walk finds is a key. -/
theorem exportNames_isKey (value : Value) {found names : List Value}
    (hnames : value.exportNames found = .ok names)
    (hfound : ∀ name ∈ found, name.isKey = true) : ∀ name ∈ names, name.isKey = true := by
  cases value with
  | array items => exact ofItems_isKey items hnames hfound
  | node tag fields =>
    rw [exportNames, bind_eq_ok_iff] at hnames
    obtain ⟨proposed, hproposed, hnames⟩ := hnames
    exact ofFields_isKey fields hnames (proposal_isKey hproposed hfound)
  | _ =>
    cases hnames
    exact hfound
termination_by structural value

theorem ofItems_isKey (items : List Value) {found names : List Value}
    (hnames : exportNames.ofItems items found = .ok names)
    (hfound : ∀ name ∈ found, name.isKey = true) : ∀ name ∈ names, name.isKey = true := by
  cases items with
  | nil =>
    cases hnames
    exact hfound
  | cons item rest =>
    rw [exportNames.ofItems, bind_eq_ok_iff] at hnames
    obtain ⟨inside, hinside, hnames⟩ := hnames
    exact ofItems_isKey rest hnames (exportNames_isKey item hinside hfound)
termination_by structural items

theorem ofFields_isKey (fields : List (String × Value)) {found names : List Value}
    (hnames : exportNames.ofFields fields found = .ok names)
    (hfound : ∀ name ∈ found, name.isKey = true) : ∀ name ∈ names, name.isKey = true := by
  cases fields with
  | nil =>
    cases hnames
    exact hfound
  | cons entry rest =>
    obtain ⟨key, value⟩ := entry
    rw [exportNames.ofFields, bind_eq_ok_iff] at hnames
    obtain ⟨inside, hinside, hnames⟩ := hnames
    exact ofFields_isKey rest hnames (exportNames_isKey value hinside hfound)
termination_by structural fields

end

/-- The candidate of a module is a key. -/
theorem primaryExport_isKey {module candidate : Value}
    (hcandidate : module.primaryExport = .ok candidate) : candidate.isKey = true := by
  rw [primaryExport] at hcandidate
  split at hcandidate
  · split at hcandidate
    · rename_i body hbody
      simp only [bind_eq_ok_iff, pure_eq_ok_iff] at hcandidate
      obtain ⟨names, hnames, rfl⟩ := hcandidate
      have hkeys := exportNames_isKey body hnames (by simp)
      cases names with
      | nil => rfl
      | cons first rest => exact hkeys first List.mem_cons_self
    · cases hcandidate
      rfl
  · cases hcandidate
    rfl

end Debundle.Value
