import Debundle.Naming.Registry
import Debundle.Proofs.Attempt
import Mathlib

/-!
# One spelling for each id

The argument of a `require` call gives the id of a module as an integer, as a double or as a
text.  A double stands for the integer that it is equal to.  A text stands for an id only if it
is the numeral of the id, and every number has one numeral: digits without a sign, a leading
zero, blanks or anything else that could be left out.
-/

namespace Debundle

namespace Double

/-- The point of the number line that a double stands for. -/
def toRat? : Double → Option ℚ
  | .finite negative significand exponent =>
    some ((if negative then -1 else 1) * (significand * 2 ^ exponent))
  | _ => none

/-- The natural number that `significand · 2 ^ exponent` is, if there is one. -/
def magnitude? (significand : Nat) (exponent : Int) : Option Nat :=
  if 0 ≤ exponent then some (significand * Nat.pow 2 exponent.toNat)
  else if significand % Nat.pow 2 (-exponent).toNat = 0 then
    some (significand / Nat.pow 2 (-exponent).toNat)
  else none

theorem toInt?_finite (negative : Bool) (significand : Nat) (exponent : Int) :
    (Double.finite negative significand exponent).toInt? =
      (magnitude? significand exponent).map fun magnitude : Nat =>
        if negative then -(magnitude : Int) else magnitude := by
  change Option.map _ (magnitude? significand exponent >>= fun magnitude => pure _) = _
  cases magnitude? significand exponent <;> rfl

theorem magnitude?_eq_some_iff {significand number : Nat} {exponent : Int} :
    magnitude? significand exponent = some number ↔
      (significand : ℚ) * 2 ^ exponent = number := by
  rw [magnitude?]
  by_cases hsign : 0 ≤ exponent
  · obtain ⟨places, rfl⟩ := Int.eq_ofNat_of_zero_le hsign
    rw [if_pos hsign, Int.toNat_natCast, Option.some.injEq, zpow_natCast]
    exact_mod_cast Iff.rfl
  · obtain ⟨places, rfl⟩ : ∃ places : Nat, exponent = -places :=
      ⟨exponent.natAbs, by omega⟩
    have hpower : (2 : ℚ) ^ places ≠ 0 := pow_ne_zero _ two_ne_zero
    rw [if_neg hsign, neg_neg, Int.toNat_natCast, zpow_neg, zpow_natCast, ← div_eq_mul_inv,
      div_eq_iff hpower]
    -- The places below the point are all zero exactly if the division leaves nothing.
    have hcast : (significand : ℚ) = number * 2 ^ places ↔
        significand = number * Nat.pow 2 places := by
      exact_mod_cast Iff.rfl
    have hpositive : 0 < Nat.pow 2 places := Nat.pow_pos Nat.two_pos
    rw [hcast]
    constructor
    · intro hdivides
      obtain ⟨hexact, hquotient⟩ := Option.ite_none_right_eq_some.1 hdivides
      rw [← Option.some.inj hquotient]
      exact (Nat.div_mul_cancel (Nat.dvd_of_mod_eq_zero hexact)).symm
    · rintro rfl
      rw [if_pos (Nat.mul_mod_left _ _), Nat.mul_div_cancel _ hpositive]

/-- A double has an integer exactly if it is equal to it as a number. -/
theorem toInt?_eq_some_iff {double : Double} {integer : Int} :
    double.toInt? = some integer ↔ double.toRat? = some (integer : ℚ) := by
  cases double with
  | nan => simp [toInt?, toRat?]
  | infinite => simp [toInt?, toRat?]
  | finite negative significand exponent =>
    have hnonneg : (0 : ℚ) ≤ significand * 2 ^ exponent := by positivity
    rw [toInt?_finite, toRat?, Option.map_eq_some_iff, Option.some.injEq]
    constructor
    · rintro ⟨magnitude, hmagnitude, rfl⟩
      rw [magnitude?_eq_some_iff.1 hmagnitude]
      cases negative <;> simp
    · intro hvalue
      have habs : (integer.natAbs : ℚ) = significand * 2 ^ exponent := by
        rw [Nat.cast_natAbs, Int.cast_abs, ← hvalue]
        cases negative <;> simp [abs_of_nonneg hnonneg]
      refine ⟨integer.natAbs, magnitude?_eq_some_iff.2 habs.symm, ?_⟩
      apply Int.cast_injective (α := ℚ)
      rw [← hvalue, ← habs]
      cases negative <;> simp

end Double

/-- A number written in digits, none of which could be left out. -/
structure IsNumeral (chars : List Char) : Prop where
  ne_nil : chars ≠ []
  digits : ∀ char ∈ chars, char.isDigit = true
  leading : chars.head? = some '0' → chars = ['0']

namespace IsNumeral

theorem exists_digitChar {char : Char} (hdigit : char.isDigit = true) :
    ∃ digit < 10, Nat.digitChar digit = char := by
  obtain ⟨hlower, hupper⟩ := Char.isDigit_iff_toNat.1 hdigit
  have hzero : '0'.toNat = 48 := rfl
  have hnine : '9'.toNat = 57 := rfl
  have hsmall : char.toNat - 48 < 10 := by omega
  refine ⟨char.toNat - 48, hsmall, Char.toNat_inj.1 ?_⟩
  rw [Nat.toNat_digitChar_of_lt_ten hsmall]
  omega

/-- Without its last digit a longer numeral is a numeral, and not that of zero. -/
theorem front {front : List Char} {last : Char} (hchars : IsNumeral (front ++ [last]))
    (hfront : front ≠ []) : IsNumeral front ∧ front.head? ≠ some '0' := by
  have hleading : front.head? ≠ some '0' := by
    intro hzero
    rw [← List.head?_append_of_ne_nil front hfront] at hzero
    have hlength := congrArg List.length (hchars.leading hzero)
    have hpositive := List.length_pos_iff.2 hfront
    simp only [List.length_append, List.length_singleton] at hlength
    omega
  exact ⟨⟨hfront, fun char hchar => hchars.digits char (List.mem_append_left _ hchar),
    fun hzero => absurd hzero hleading⟩, hleading⟩

/-- A numeral is written back from the number that is read from it. -/
theorem toDigits_ofDigitChars {chars : List Char} (hchars : IsNumeral chars) :
    Nat.toDigits 10 (Nat.ofDigitChars 10 chars 0) = chars := by
  induction chars using List.reverseRecOn with
  | nil => exact absurd rfl hchars.ne_nil
  | append_singleton front last ih =>
    obtain ⟨digit, hdigit, rfl⟩ := exists_digitChar (hchars.digits last (by simp))
    rw [Nat.ofDigitChars_append, Nat.ofDigitChars_cons_digitChar_of_lt_ten hdigit,
      Nat.ofDigitChars_nil]
    by_cases hfront : front = []
    · subst hfront
      rw [Nat.ofDigitChars_nil, Nat.mul_zero, Nat.zero_add, Nat.toDigits_of_lt_base hdigit,
        List.nil_append]
    · obtain ⟨hnumeral, hleading⟩ := hchars.front hfront
      have hback := ih hnumeral
      have hpositive : 0 < Nat.ofDigitChars 10 front 0 := by
        rw [Nat.pos_iff_ne_zero]
        intro hzero
        rw [hzero, Nat.toDigits_zero] at hback
        exact hleading (hback ▸ rfl)
      rw [← Nat.toDigits_append_toDigits (by omega) hpositive hdigit, hback,
        Nat.toDigits_of_lt_base hdigit]

/-- The digits of a number begin with zero only if the number is zero. -/
theorem toDigits (number : Nat) : IsNumeral (Nat.toDigits 10 number) := by
  refine ⟨Nat.toDigits_ne_nil, fun char => Nat.isDigit_of_mem_toDigits (by omega) (by omega), ?_⟩
  induction number using Nat.strongRecOn with
  | ind number ih =>
    intro hleading
    by_cases hsmall : number < 10
    · rw [Nat.toDigits_of_lt_base hsmall] at hleading ⊢
      rw [List.head?_singleton] at hleading
      rw [Option.some.inj hleading]
    · -- The digits in front are those of a smaller number, which would have to be zero.
      rw [Nat.toDigits_of_base_le (by omega) (Nat.le_of_not_lt hsmall),
        List.head?_append_of_ne_nil _ Nat.toDigits_ne_nil] at hleading
      have hzero := congrArg (fun chars => Nat.ofDigitChars 10 chars 0)
        (ih (number / 10) (by omega) hleading)
      simp only [Nat.ofDigitChars_ten_toDigits] at hzero
      have hread : Nat.ofDigitChars 10 ['0'] 0 = 0 := rfl
      omega

end IsNumeral

/-- The numerals are the texts of the natural numbers. -/
theorem isNumeral_iff {text : String} :
    IsNumeral text.toList ↔ ∃ number : Nat, text = toString number := by
  constructor
  · intro hnumeral
    refine ⟨Nat.ofDigitChars 10 text.toList 0, String.toList_inj.1 ?_⟩
    rw [Nat.toString_eq_repr, Nat.toList_repr, hnumeral.toDigits_ofDigitChars]
  · rintro ⟨number, rfl⟩
    rw [Nat.toString_eq_repr, Nat.toList_repr]
    exact .toDigits number

/-- The values that stand for an id: the integer, every double that is equal to it, and its
numeral. -/
inductive Value.GivesId (id : Nat) : Value → Prop where
  | int : GivesId id (.int id)
  | float {double : Double} : double.toRat? = some (id : ℚ) → GivesId id (.float double)
  | text : GivesId id (.text (toString id))

/-- What the index of a text is: numerals are read up to a limit, longer rows of digits are
refused, and no other text is an id. -/
inductive TextIndex (text : String) : Except Fault (Option Int) → Prop where
  | numeral {id : Nat} : text = toString id → text.length ≤ numeralLimit →
      TextIndex text (.ok (some id))
  | overlong : (∀ char ∈ text.toList, char.isDigit = true) → numeralLimit < text.length →
      TextIndex text (.error (.tooManyDigits text.length))
  | other : (∀ id : Nat, text ≠ toString id) → TextIndex text (.ok none)

/-- What is checked of a text before it is read as a number. -/
theorem isNumeral_iff_checked {chars : List Char} :
    IsNumeral chars ↔ (!chars.isEmpty && chars.all Char.isDigit) = true ∧
      (decide (chars.length = 1) || chars.head? != some '0') = true := by
  simp only [Bool.and_eq_true, Bool.or_eq_true, Bool.not_eq_true', List.isEmpty_eq_false_iff,
    List.all_eq_true, decide_eq_true_eq, bne_iff_ne]
  constructor
  · rintro ⟨hsome, hdigits, hleading⟩
    refine ⟨⟨hsome, hdigits⟩, or_iff_not_imp_right.2 fun hzero => ?_⟩
    rw [hleading (not_not.1 hzero), List.length_singleton]
  · rintro ⟨⟨hsome, hdigits⟩, hleading⟩
    refine ⟨hsome, hdigits, fun hzero => ?_⟩
    obtain ⟨char, rfl⟩ := List.length_eq_one_iff.1 (hleading.resolve_right (not_not.2 hzero))
    rw [List.head?_singleton, Option.some.injEq] at hzero
    rw [hzero]

instance (chars : List Char) : Decidable (IsNumeral chars) :=
  decidable_of_iff _ isNumeral_iff_checked.symm

theorem textIndex_moduleIndex (text : String) : TextIndex text (moduleIndex (.text text)) := by
  have hnone : ¬ IsNumeral text.toList → ∀ id : Nat, text ≠ toString id :=
    fun hnumeral id htext => hnumeral (isNumeral_iff.2 ⟨id, htext⟩)
  rw [isNumeral_iff_checked, not_and_or] at hnone
  rw [moduleIndex]
  split
  · rename_i hdigits
    split
    · rename_i hlong
      rw [Bool.and_eq_true, List.all_eq_true] at hdigits
      exact .overlong hdigits.2 hlong
    · rename_i hshort
      split
      · rename_i hleading
        have hback := (isNumeral_iff_checked.2 ⟨hdigits, hleading⟩).toDigits_ofDigitChars
        refine .numeral (String.toList_inj.1 ?_) (Nat.le_of_not_lt hshort)
        rw [Nat.toString_eq_repr, Nat.toList_repr, hback]
      · rename_i hleading
        exact .other (hnone (.inr hleading))
  · rename_i hdigits
    exact .other (hnone (.inl hdigits))

/-- The texts that have an index are the numerals up to the limit. -/
theorem moduleIndex_text_eq_some_iff {text : String} {index : Int} :
    moduleIndex (.text text) = .ok (some index) ↔
      ∃ id : Nat, index = id ∧ text = toString id ∧ text.length ≤ numeralLimit := by
  have htext := textIndex_moduleIndex text
  generalize moduleIndex (.text text) = outcome at htext
  cases htext with
  | @numeral number hnumber hshort =>
    constructor
    · rintro ⟨⟩
      exact ⟨number, rfl, hnumber, hshort⟩
    · rintro ⟨id, rfl, hid, -⟩
      rw [Nat.repr_injective (hnumber.symm.trans hid)]
  | overlong _ hlong =>
    refine iff_of_false (by rintro ⟨⟩) ?_
    rintro ⟨-, -, -, hshort⟩
    exact absurd hlong (Nat.not_lt.2 hshort)
  | other hother =>
    refine iff_of_false (by rintro ⟨⟩) ?_
    rintro ⟨id, -, hid, -⟩
    exact hother id hid

theorem moduleIndex_eq_some_iff {id : Nat} (hid : (toString id).length ≤ numeralLimit)
    {value : Value} : moduleIndex value = .ok (some (id : Int)) ↔ value.GivesId id := by
  constructor
  · intro hindex
    cases value with
    | int integer =>
      cases hindex
      exact .int
    | float double => exact .float (Double.toInt?_eq_some_iff.1 (Except.ok.inj hindex))
    | text text =>
      obtain ⟨number, hnumber, rfl, -⟩ := moduleIndex_text_eq_some_iff.1 hindex
      rw [Nat.cast_injective hnumber]
      exact .text
    | _ => cases hindex
  · intro hgives
    cases hgives with
    | int => rfl
    | float hequal => exact congrArg Except.ok (Double.toInt?_eq_some_iff.2 hequal)
    | text => exact moduleIndex_text_eq_some_iff.2 ⟨id, rfl, rfl, hid⟩

/-- A text that is not the numeral of an id within the limit is no id; if it is not too long it
is not refused either. -/
theorem moduleIndex_of_other_text {text : String}
    (hother : ∀ id : Nat, (toString id).length ≤ numeralLimit → text ≠ toString id)
    (hshort : text.length ≤ numeralLimit) : moduleIndex (.text text) = .ok none := by
  have htext := textIndex_moduleIndex text
  generalize moduleIndex (.text text) = outcome at htext ⊢
  cases htext with
  | @numeral id hid _ => exact absurd hid (hother id (hid ▸ hshort))
  | overlong _ hlong => exact absurd hlong (Nat.not_lt.2 hshort)
  | other => rfl

namespace Registry

variable {registry : Registry} {value : Value}

theorem resolve_of_moduleIndex {index : Option Int} (hindex : moduleIndex value = .ok index) :
    registry.resolve value = .ok (index.bind registry.name?) := by
  rw [resolve, hindex]
  rfl

/-- Every id has one text.  An id with up to 4300 digits is the index of the integer, of the
doubles that are equal to it and of its numeral, and of nothing else; so all of these are
resolved to the name of the id.  Only numerals have an index among the texts, and no other text
is resolved to a name. -/
theorem resolves_one_spelling (registry : Registry) :
    (∀ (id : Nat) (value : Value), (toString id).length ≤ 4300 →
      (moduleIndex value = .ok (some (id : Int)) ↔ value.GivesId id) ∧
        (value.GivesId id → registry.resolve value = .ok (registry.name? id))) ∧
      (∀ (text : String) (index : Int), moduleIndex (.text text) = .ok (some index) →
        IsNumeral text.toList ∧ ∃ id : Nat, index = id ∧ text = toString id) ∧
      ∀ text : String, (∀ id : Nat, (toString id).length ≤ 4300 → text ≠ toString id) →
        (∀ name, registry.resolve (.text text) ≠ .ok (some name)) ∧
          (text.length ≤ 4300 → registry.resolve (.text text) = .ok none) := by
  refine ⟨fun id value hid => ?_, fun text index hindex => ?_, fun text hother => ⟨?_, ?_⟩⟩
  · have hindex : moduleIndex value = .ok (some (id : Int)) ↔ value.GivesId id :=
      moduleIndex_eq_some_iff hid
    exact ⟨hindex, fun hgives => resolve_of_moduleIndex (hindex.2 hgives)⟩
  · obtain ⟨id, rfl, htext, -⟩ := moduleIndex_text_eq_some_iff.1 hindex
    exact ⟨isNumeral_iff.2 ⟨id, htext⟩, id, rfl, htext⟩
  · intro name hname
    obtain ⟨index?, hindex, hfound⟩ := Attempt.bind_eq_ok_iff.1 hname
    obtain ⟨index, rfl, -⟩ := Option.bind_eq_some_iff.1 (Attempt.pure_eq_ok_iff.1 hfound)
    obtain ⟨id, -, hid, hshort⟩ := moduleIndex_text_eq_some_iff.1 hindex
    exact hother id (hid ▸ hshort) hid
  · intro hshort
    exact resolve_of_moduleIndex (moduleIndex_of_other_text hother hshort)

/-- Module 17 is found by `17`, `17.0` and `"17"`, but not by `"017"` or by Arabic digits. -/
theorem resolves_one_spelling_seventeen :
    resolve { names := [(17, .text "Foo")] } (.int 17) = .ok (some (.text "Foo")) ∧
      resolve { names := [(17, .text "Foo")] } (.float (.finite false 34 (-1))) =
        .ok (some (.text "Foo")) ∧
      resolve { names := [(17, .text "Foo")] } (.text "17") = .ok (some (.text "Foo")) ∧
      resolve { names := [(17, .text "Foo")] } (.text "017") = .ok none ∧
      resolve { names := [(17, .text "Foo")] } (.text "١٧") = .ok none := by
  obtain ⟨hgiven, -, hother⟩ := resolves_one_spelling { names := [(17, .text "Foo")] }
  have hid : (toString 17).length ≤ 4300 := by decide
  have hdouble : (Double.finite false 34 (-1)).toRat? = some ((17 : Nat) : ℚ) := by
    norm_num [Double.toRat?]
  have hnone : ∀ text : String, ¬ IsNumeral text.toList →
      ∀ id : Nat, (toString id).length ≤ 4300 → text ≠ toString id :=
    fun text hnumeral id _ htext => hnumeral (isNumeral_iff.2 ⟨id, htext⟩)
  exact ⟨(hgiven 17 _ hid).2 .int, (hgiven 17 _ hid).2 (.float hdouble), (hgiven 17 _ hid).2 .text,
    (hother "017" (hnone _ (by decide))).2 (by decide),
    (hother "١٧" (hnone _ (by decide))).2 (by decide)⟩

end Registry

end Debundle
