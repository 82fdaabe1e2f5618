import Debundle.Naming.UniqueName
import Debundle.Proofs.Loop
import Debundle.Proofs.Tree.Key
import Mathlib

/-!
# Free spellings of a name

The spellings `Foo`, `Foo__1`, `Foo__2`, … of a name are all different, so among one more
spelling than there are taken names one is free.  The unique name is the first of them, and a
loop that tries one number after the other comes to it without any bound on the numbers.
-/

namespace Debundle

variable {base value : Value} {taken : List Value} {index other : Nat}

/-- A value is the same as at most one spelling. -/
theorem numberedName_index_eq (hindex : (numberedName base index == value) = true)
    (hother : (numberedName base other == value) = true) : index = other := by
  -- A spelling with a number is a text, and longer than the name itself.
  have hplain : ∀ number, (base == value) = true →
      (Value.text (base.display ++ "__" ++ toString (number + 1)) == value) = true → False := by
    intro number hbase hnumbered
    rw [Value.text_beq_iff] at hnumbered
    subst hnumbered
    have hbase := Value.same_eq_text hbase
    rw [hbase] at hbase
    have hlength := congrArg String.length (Value.text.inj hbase)
    simp only [Value.display, Value.shown, String.length_append, if_true] at hlength
    have hbar : "__".length = 2 := rfl
    omega
  cases index with
  | zero =>
    cases other with
    | zero => rfl
    | succ number => exact absurd hother (hplain number hindex)
  | succ index =>
    cases other with
    | zero => exact absurd hindex (hplain index hother)
    | succ other =>
      simp only [numberedName, Nat.add_eq_zero_iff, Nat.one_ne_zero, and_false, if_false,
        Value.text_beq_iff] at hindex hother
      have htexts := Value.text.inj (hindex.symm.trans hother)
      exact Nat.repr_inj.1 ((String.append_right_inj _).1 htexts)

/-- Among one more spelling than there are taken names one is free. -/
theorem exists_free_spelling (base : Value) (taken : List Value) :
    ∃ index < taken.length + 1, taken.contains (numberedName base index) = false := by
  by_contra hnone
  have htaken : ∀ index : Fin (taken.length + 1), ∃ place : Fin taken.length,
      (numberedName base index == taken.get place) = true := by
    intro index
    have hcontains : taken.contains (numberedName base index) = true := by
      by_contra hfree
      exact hnone ⟨index, index.isLt, Bool.not_eq_true _ ▸ hfree⟩
    rw [List.contains_eq_any_beq, List.any_eq_true] at hcontains
    obtain ⟨name, hmem, hsame⟩ := hcontains
    obtain ⟨place, rfl⟩ := List.get_of_mem hmem
    exact ⟨place, hsame⟩
  choose place hplace using htaken
  obtain ⟨first, second, hne, heq⟩ := Fintype.exists_ne_map_eq_of_card_lt place (by simp)
  have hsecond := hplace second
  rw [← heq] at hsecond
  exact hne (Fin.ext (numberedName_index_eq (hplace first) hsecond))

/-- The unique name is the first spelling that is free. -/
theorem uniqueName_eq_first (base : Value) (taken : List Value) :
    ∃ index ≤ taken.length, uniqueName base taken = numberedName base index ∧
      taken.contains (numberedName base index) = false ∧
      ∀ smaller < index, taken.contains (numberedName base smaller) = true := by
  obtain ⟨free, hlt, hfree⟩ := exists_free_spelling base taken
  have hsome : ((List.range (taken.length + 1)).find? fun index =>
      !taken.contains (numberedName base index)).isSome = true := by
    rw [List.find?_isSome]
    exact ⟨free, List.mem_range.2 hlt, by rw [hfree]; rfl⟩
  obtain ⟨index, hindex⟩ := Option.isSome_iff_exists.1 hsome
  obtain ⟨hfirst, hmem, hbefore⟩ := List.find?_range_eq_some.1 hindex
  refine ⟨index, ?_, ?_, by simpa using hfirst, fun smaller hsmaller => ?_⟩
  · exact Nat.le_of_lt_succ (List.mem_range.1 hmem)
  · rw [uniqueName, hindex, Option.getD_some]
  · simpa using hbefore smaller hsmaller

theorem uniqueName_not_taken (base : Value) (taken : List Value) :
    taken.contains (uniqueName base taken) = false := by
  obtain ⟨index, -, heq, hfree, -⟩ := uniqueName_eq_first base taken
  rw [heq, hfree]

theorem uniqueName_isKey (hbase : base.isKey = true) : (uniqueName base taken).isKey = true := by
  obtain ⟨index, -, heq, -⟩ := uniqueName_eq_first base taken
  rw [heq, numberedName]
  split
  · exact hbase
  · rfl

/-- Spellings that are all taken are no more than the taken names. -/
theorem le_ncard_of_taken {count : Nat}
    (htaken : ∀ index < count, taken.contains (numberedName base index) = true) :
    count ≤ {name | name ∈ taken}.ncard := by
  have hname : ∀ index : Fin count, ∃ name : {name | name ∈ taken},
      (numberedName base index == name.1) = true := by
    intro index
    have hcontains := htaken index index.isLt
    rw [List.contains_eq_any_beq, List.any_eq_true] at hcontains
    obtain ⟨name, hmem, hsame⟩ := hcontains
    exact ⟨⟨name, hmem⟩, hsame⟩
  choose name hname using hname
  have hinjective : Function.Injective name := by
    intro first second heq
    have hsecond := hname second
    rw [← heq] at hsecond
    exact Fin.ext (numberedName_index_eq (hname first) hsecond)
  have hfinite : Finite {name | name ∈ taken} := List.finite_toSet taken
  have hcard := Nat.card_le_card_of_injective name hinjective
  rwa [Nat.card_fin, Nat.card_coe_set_eq] at hcard

/-- A search for a free spelling: the number that is tried, and the spelling with it. -/
structure Trial where
  index : Nat
  candidate : Value

/-- The search goes on to the next number while the spelling is taken. -/
def spellingLoop (base : Value) (taken : List Value) : Loop Trial where
  goesOn trial := taken.contains trial.candidate
  round trial := ⟨trial.index + 1, numberedName base (trial.index + 1)⟩

/-- The search ends at the unique name, after as many rounds as spellings were taken. -/
theorem spellingLoop_endsAfter (base : Value) (taken : List Value) :
    ∃ rounds, (spellingLoop base taken).EndsAfter rounds ⟨0, base⟩
        ⟨rounds, uniqueName base taken⟩ ∧
      uniqueName base taken = numberedName base rounds ∧
      taken.contains (numberedName base rounds) = false ∧
      ∀ index < rounds, taken.contains (numberedName base index) = true := by
  obtain ⟨rounds, -, heq, hfree, hbefore⟩ := uniqueName_eq_first base taken
  refine ⟨rounds, ?_, heq, hfree, hbefore⟩
  rw [heq]
  exact .of_states (fun index => Trial.mk index (numberedName base index)) (fun _ => rfl)
    hbefore hfree

theorem numberedName_text (base : String) {number : Nat} (hnumber : 1 ≤ number) :
    numberedName (.text base) number = .text (base ++ "__" ++ toString number) :=
  if_neg (Nat.one_le_iff_ne_zero.1 hnumber)

/-- The search for a free spelling of a text ends after no more rounds than there are taken
names.  It comes to the text itself if that is free, and otherwise to the text with the least
number that makes it so. -/
theorem uniqueName_least_free (base : String) (taken : List Value) :
    ∃ rounds ≤ {name | name ∈ taken}.ncard,
      (spellingLoop (.text base) taken).EndsAfter rounds ⟨0, .text base⟩
        ⟨rounds, uniqueName (.text base) taken⟩ ∧
      ((Value.text base ∉ taken ∧ uniqueName (.text base) taken = .text base) ∨
        (Value.text base ∈ taken ∧
          uniqueName (.text base) taken = .text (base ++ "__" ++ toString rounds) ∧
          IsLeast {number | 1 ≤ number ∧
            Value.text (base ++ "__" ++ toString number) ∉ taken} rounds)) := by
  obtain ⟨rounds, hends, heq, hfree, hbefore⟩ := spellingLoop_endsAfter (.text base) taken
  refine ⟨rounds, le_ncard_of_taken hbefore, hends, ?_⟩
  cases rounds with
  | zero =>
    refine .inl ⟨fun hmem => ?_, heq⟩
    cases hfree.symm.trans (Value.contains_text_iff.2 hmem)
  | succ rounds =>
    have hpositive : 1 ≤ rounds + 1 := Nat.succ_pos rounds
    rw [numberedName_text base hpositive] at heq hfree
    refine .inr ⟨Value.contains_text_iff.1 (hbefore 0 hpositive), heq, ⟨hpositive, ?_⟩, ?_⟩
    · intro hmem
      cases hfree.symm.trans (Value.contains_text_iff.2 hmem)
    · rintro number ⟨hnumber, hnot⟩
      by_contra hless
      have htaken := hbefore number (Nat.lt_of_not_le hless)
      rw [numberedName_text base hnumber] at htaken
      exact hnot (Value.contains_text_iff.1 htaken)

end Debundle
