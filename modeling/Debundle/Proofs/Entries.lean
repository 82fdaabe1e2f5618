import Debundle.Entries

/-!
# Putting entries

What is found under a key after an entry was put, and which entries there are then.  The
comparison of keys need not be an equivalence: some keys differ from themselves.
-/

namespace Debundle.Entries

variable {κ β : Type} [BEq κ] {entries : List (κ × β)} {key : κ} {value : β}

theorem put_of_absent (habsent : ∀ entry ∈ entries, (entry.1 == key) = false) :
    put entries key value = entries ++ [(key, value)] := by
  induction entries with
  | nil => rfl
  | cons entry rest ih =>
    have hentry := habsent entry List.mem_cons_self
    have hrest := ih fun other hother => habsent other (List.mem_cons_of_mem entry hother)
    rw [put, hentry, hrest]
    rfl

/-- Entries of other keys stay, and the only one of this key changes its value. -/
theorem put_of_unique {before after : List (κ × β)} {entry : κ × β}
    (hentry : (entry.1 == key) = true)
    (hbefore : ∀ other ∈ before, (other.1 == key) = false) :
    put (before ++ entry :: after) key value = before ++ (entry.1, value) :: after := by
  induction before with
  | nil =>
    rw [List.nil_append, put, hentry]
    rfl
  | cons first rest ih =>
    have hfirst := hbefore first List.mem_cons_self
    have hrest := ih fun other hother => hbefore other (List.mem_cons_of_mem first hother)
    rw [List.cons_append, put, hfirst, hrest]
    rfl

theorem lookup_put [LawfulBEq κ] (entries : List (κ × β)) (key other : κ) (value : β) :
    (put entries key value).lookup other =
      if other == key then some value else entries.lookup other := by
  induction entries with
  | nil => cases hother : other == key <;> simp [put, List.lookup_cons, hother]
  | cons entry rest ih =>
    obtain ⟨name, held⟩ := entry
    rw [put]
    by_cases hname : name = key
    · subst hname
      cases hother : other == name <;> simp [List.lookup_cons, hother]
    · rw [if_neg (by simpa using hname), List.lookup_cons, List.lookup_cons, ih]
      cases hother : other == name
      · rfl
      · rw [eq_of_beq hother, beq_false_of_ne hname]
        rfl

/-- A key that is there already keeps its place, and a new one comes last. -/
theorem keys_put [LawfulBEq κ] (entries : List (κ × β)) (key : κ) (value : β) :
    (put entries key value).map Prod.fst =
      if key ∈ entries.map Prod.fst then entries.map Prod.fst
      else entries.map Prod.fst ++ [key] := by
  induction entries with
  | nil => rfl
  | cons entry rest ih =>
    obtain ⟨name, held⟩ := entry
    rw [put]
    by_cases hname : name = key
    · simp [hname]
    · rw [if_neg (by simpa using hname), List.map_cons, List.map_cons, ih]
      by_cases hmem : key ∈ rest.map Prod.fst
      · rw [if_pos hmem, if_pos (List.mem_cons_of_mem name hmem)]
      · rw [if_neg hmem, if_neg (by simp [hmem, Ne.symm hname]), List.cons_append]

theorem lookup_filter_ne [LawfulBEq κ] (entries : List (κ × β)) (key other : κ) :
    (entries.filter fun entry => entry.1 != key).lookup other =
      if other == key then none else entries.lookup other := by
  induction entries with
  | nil => simp
  | cons entry rest ih =>
    obtain ⟨name, held⟩ := entry
    by_cases hname : name = key
    · subst hname
      rw [List.filter_cons_of_neg (by simp), ih, List.lookup_cons]
      cases hother : other == name <;> rfl
    · rw [List.filter_cons_of_pos (by simpa using hname), List.lookup_cons, ih, List.lookup_cons]
      cases hother : other == name
      · rfl
      · rw [eq_of_beq hother, beq_false_of_ne hname]
        rfl

theorem mem_keys_of_lookup [LawfulBEq κ] {entries : List (κ × β)}
    (hlookup : entries.lookup key = some value) : key ∈ entries.map Prod.fst := by
  obtain ⟨before, after, rfl, -⟩ := List.lookup_eq_some_iff.1 hlookup
  simp

theorem put_put [LawfulBEq κ] (entries : List (κ × β)) (key : κ) (first second : β) :
    put (put entries key first) key second = put entries key second := by
  induction entries with
  | nil => simp [put]
  | cons entry rest ih =>
    obtain ⟨other, held⟩ := entry
    by_cases hkey : other = key
    · simp [put, hkey]
    · simp [put, hkey, ih]

end Debundle.Entries
