import Debundle.Tree.Name
import Mathlib.Data.List.Forall2

/-!
# Steps that may fail

Passes are written as steps each of which may fail.  A pass that succeeds has succeeded
at every step, and reading a part of a value comes to the same as reading the value.
-/

namespace Debundle

namespace Attempt

variable {ε α β : Type}

@[simp]
theorem pure_eq_ok_iff {value result : α} :
    (pure value : Except ε α) = .ok result ↔ value = result := by
  simp [pure, Except.pure]

theorem ok_bind (value : α) (next : α → Except ε β) : (Except.ok value >>= next) = next value :=
  rfl

theorem bind_eq_ok_iff {first : Except ε α} {next : α → Except ε β} {result : β} :
    (first >>= next) = .ok result ↔ ∃ value, first = .ok value ∧ next value = .ok result := by
  cases first <;> simp [bind, Except.bind]

theorem map_eq_ok_iff {first : Except ε α} {f : α → β} {result : β} :
    first.map f = .ok result ↔ ∃ value, first = .ok value ∧ f value = result := by
  cases first <;> simp [Except.map]

theorem of_toOption_map {first : Except ε α} {f : α → β} {result : β}
    (hresult : first.toOption.map f = some result) :
    ∃ value, first = .ok value ∧ f value = result := by
  cases first with
  | error fault => simp [Except.toOption] at hresult
  | ok value => exact ⟨value, rfl, by simpa [Except.toOption] using hresult⟩

theorem of_toOption_isSome {first : Except ε α} (hsome : first.toOption.isSome = true) :
    ∃ value, first = .ok value := by
  cases first with
  | error fault => cases hsome
  | ok value => exact ⟨value, rfl⟩

/-- A step for every item of a list succeeds exactly if each of them does. -/
theorem mapM_eq_ok_iff {f : α → Except ε β} {items : List α} {results : List β} :
    items.mapM f = .ok results ↔
      List.Forall₂ (fun item result => f item = .ok result) items results := by
  induction items generalizing results with
  | nil => rw [List.mapM_nil, pure_eq_ok_iff, List.forall₂_nil_left_iff, eq_comm]
  | cons item rest ih =>
    simp only [List.mapM_cons, bind_eq_ok_iff, pure_eq_ok_iff, List.forall₂_cons_left_iff]
    constructor
    · rintro ⟨first, hfirst, others, hothers, rfl⟩
      exact ⟨first, others, hfirst, ih.1 hothers, rfl⟩
    · rintro ⟨first, others, hfirst, hothers, rfl⟩
      exact ⟨first, hfirst, others, ih.2 hothers, rfl⟩

theorem exists_of_mem_mapM {f : α → Except ε β} {items : List α} {results : List β} {result : β}
    (hresults : items.mapM f = .ok results) (hresult : result ∈ results) :
    ∃ item ∈ items, f item = .ok result := by
  rw [mapM_eq_ok_iff] at hresults
  induction hresults with
  | nil => cases hresult
  | cons hfirst _ ih =>
    rcases List.mem_cons.1 hresult with rfl | hrest
    · exact ⟨_, List.mem_cons_self, hfirst⟩
    · obtain ⟨item, hitem, hstep⟩ := ih hrest
      exact ⟨item, List.mem_cons_of_mem _ hitem, hstep⟩

/-- Whatever comes out of a step is good. -/
def Gives (good : α → Prop) (step : Except ε α) : Prop :=
  ∀ result, step = .ok result → good result

namespace Gives

variable {good : α → Prop}

theorem pure {value : α} (hgood : good value) : Gives good (Pure.pure value : Except ε α) := by
  rintro _ ⟨⟩
  exact hgood

theorem error {fault : ε} : Gives good (.error fault : Except ε α) := by
  rintro _ ⟨⟩

theorem bind {first : Except ε β} {next : β → Except ε α}
    (hnext : ∀ value, Gives good (next value)) : Gives good (first >>= next) := by
  intro result hresult
  obtain ⟨value, -, hvalue⟩ := bind_eq_ok_iff.1 hresult
  exact hnext value result hvalue

theorem map {first : Except ε β} {f : β → α} (hgood : ∀ value, good (f value)) :
    Gives good (first.map f) := by
  intro result hresult
  obtain ⟨value, -, rfl⟩ := map_eq_ok_iff.1 hresult
  exact hgood value

theorem ite {condition : Prop} [Decidable condition] {first second : Except ε α}
    (hfirst : Gives good first) (hsecond : Gives good second) :
    Gives good (if condition then first else second) := by
  split
  · exact hfirst
  · exact hsecond

end Gives

/-- A step succeeds, and what comes out of it is good. -/
def Yields (good : α → Prop) (step : Except ε α) : Prop :=
  ∃ result, step = .ok result ∧ good result

/-- Nothing is asked of a result. -/
def Anything (_ : α) : Prop :=
  True

namespace Yields

variable {good : α → Prop} {result : β → Prop} {step : Except ε α}

theorem pure {value : α} (hgood : good value) : Yields good (Pure.pure value : Except ε α) :=
  ⟨value, rfl, hgood⟩

theorem anything {value : α} : Yields Anything (Pure.pure value : Except ε α) :=
  pure trivial

theorem bind {next : α → Except ε β} (hstep : Yields good step)
    (hnext : ∀ value, good value → Yields result (next value)) : Yields result (step >>= next) := by
  obtain ⟨value, rfl, hgood⟩ := hstep
  exact hnext value hgood

theorem map {f : α → β} (hstep : Yields good step) (hmap : ∀ value, good value → result (f value)) :
    Yields result (step.map f) := by
  obtain ⟨value, rfl, hgood⟩ := hstep
  exact ⟨f value, rfl, hmap value hgood⟩

theorem mono {weaker : α → Prop} (hstep : Yields good step)
    (hweaker : ∀ value, good value → weaker value) : Yields weaker step := by
  obtain ⟨value, hvalue, hgood⟩ := hstep
  exact ⟨value, hvalue, hweaker value hgood⟩

theorem ite {condition : Prop} [Decidable condition] {other : Except ε α}
    (hthen : condition → Yields good step) (helse : ¬ condition → Yields good other) :
    Yields good (if condition then step else other) := by
  split
  · next hholds => exact hthen hholds
  · next hfails => exact helse hfails

/-- A step for every item of a list succeeds if each of them does. -/
theorem mapM {f : α → Except ε β} {items : List α}
    (hitems : ∀ item ∈ items, Yields result (f item)) :
    Yields (fun results => ∀ value ∈ results, result value) (items.mapM f) := by
  induction items with
  | nil => exact pure fun _ hmem => absurd hmem List.not_mem_nil
  | cons item rest ih =>
    rw [List.mapM_cons]
    refine (hitems item List.mem_cons_self).bind fun head hhead => ?_
    refine (ih fun other hother => hitems other (List.mem_cons_of_mem item hother)).bind
      fun tail htail => pure ?_
    exact List.forall_mem_cons.2 ⟨hhead, htail⟩

/-- What comes out of a step for every item is good for that item. -/
theorem mapM_forall₂ {f : α → Except ε β} {items : List α} {fits : α → β → Prop}
    (hitems : ∀ item ∈ items, Yields (fits item) (f item)) :
    Yields (List.Forall₂ fits items) (items.mapM f) := by
  induction items with
  | nil => exact pure .nil
  | cons item rest ih =>
    rw [List.mapM_cons]
    refine (hitems item List.mem_cons_self).bind fun head hhead => ?_
    refine (ih fun other hother => hitems other (List.mem_cons_of_mem item hother)).bind
      fun tail htail => pure (.cons hhead htail)

theorem mapM_anything {f : α → Except ε β} {items : List α}
    (hitems : ∀ item ∈ items, Yields Anything (f item)) : Yields Anything (items.mapM f) :=
  (mapM hitems).mono fun _ _ => trivial

end Yields

end Attempt

namespace Value

theorem part?_map_value (whole : Value) (key : String) :
    (whole.part? key).map Part.value = whole.lookup key := by
  simp [part?, Function.comp_def]

variable {whole value found : Value} {key : String}

theorem part?_eq_none_iff : whole.part? key = none ↔ whole.lookup key = none := by
  simp [part?]

theorem lookup_of_part? {part : Part whole} (hpart : whole.part? key = some part) :
    whole.lookup key = some part.value := by
  rw [← part?_map_value, hpart]
  rfl

theorem exists_part (hlookup : whole.lookup key = some value) :
    ∃ part, whole.part? key = some part ∧ part.value = value := by
  rwa [← part?_map_value, Option.map_eq_some_iff] at hlookup

theorem given?_isSome_iff :
    (whole.given? key).isSome = true ↔
      ∃ value, whole.lookup key = some value ∧ value.isNull = false := by
  rw [Option.isSome_iff_exists]
  constructor
  · rintro ⟨part, hpart⟩
    obtain ⟨hfound, hnull⟩ := Option.filter_eq_some_iff.1 hpart
    exact ⟨part.value, lookup_of_part? hfound, by simpa using hnull⟩
  · rintro ⟨value, hlookup, hnull⟩
    obtain ⟨part, hpart, rfl⟩ := exists_part hlookup
    exact ⟨part, Option.filter_eq_some_iff.2 ⟨hpart, by simpa using hnull⟩⟩

theorem require_eq_ok_iff {part : Part whole} :
    whole.require key = .ok part ↔ whole.part? key = some part := by
  simp only [require]
  split <;> simp_all

theorem require_of_lookup (hlookup : whole.lookup key = some value) :
    ∃ part, whole.require key = .ok part ∧ part.value = value := by
  obtain ⟨part, hpart, hvalue⟩ := exists_part hlookup
  exact ⟨part, require_eq_ok_iff.2 hpart, hvalue⟩

theorem name_eq_ok (hlookup : value.lookup "name" = some found) : value.name = .ok found := by
  obtain ⟨part, hpart, rfl⟩ := exists_part hlookup
  rw [name, require_eq_ok_iff.2 hpart]
  rfl

theorem lookup_of_name (hname : value.name = .ok found) : value.lookup "name" = some found := by
  obtain ⟨part, hpart, hvalue⟩ := Attempt.bind_eq_ok_iff.1 hname
  rw [Attempt.pure_eq_ok_iff] at hvalue
  rw [lookup_of_part? (require_eq_ok_iff.1 hpart), hvalue]

end Value

variable {whole : Value} {key : String} {items : List Value}

theorem Part.elements_map_value (part : Part whole) :
    part.elements.map (List.map Part.value) = part.value.elements := by
  simp only [Part.elements]
  split
  · rename_i items helements
    simp [Except.map, helements]
  · rename_i fault helements
    simp [Except.map, helements]

theorem Part.item_map_value (part : Part whole) (position : Nat) :
    (part.item position).map Part.value = part.value.item position := by
  simp only [Part.item]
  split
  · rename_i item hitem
    simp [Except.map, hitem]
  · rename_i fault hitem
    simp [Except.map, hitem]

/-- The values of the list in a field, read without the proof that they are smaller. -/
theorem Value.listAt_map_value (whole : Value) (key : String) :
    (whole.listAt key).map (List.map Part.value) =
      match whole.lookup key with
      | some value => if value.isTruthy then value.elements else .ok []
      | none => .ok [] := by
  simp only [listAt]
  cases hpart : whole.part? key with
  | none =>
    rw [Value.part?_eq_none_iff.1 hpart]
    rfl
  | some part =>
    rw [Value.lookup_of_part? hpart]
    by_cases htruthy : part.value.isTruthy
    · simp only [htruthy, if_true, Part.elements_map_value]
    · simp [htruthy, Except.map]

theorem Value.listAt_of_array (hlookup : whole.lookup key = some (.array items)) :
    ∃ parts, whole.listAt key = .ok parts ∧ parts.map Part.value = items := by
  rw [← Attempt.map_eq_ok_iff, listAt_map_value, hlookup]
  cases items <;> rfl

theorem Value.asRecord_of_lookup {value : Value} (hlookup : whole.lookup key = some value) :
    whole.asRecord = .ok () := by
  cases hfields : whole.fields? with
  | none =>
    rw [Value.lookup, hfields] at hlookup
    cases hlookup
  | some fields =>
    rw [Value.asRecord, hfields]
    rfl

theorem Part.require_of_lookup {whole value : Value} {outer : Part whole} {key : String}
    (hlookup : outer.value.lookup key = some value) :
    ∃ part, outer.require key = .ok part ∧ part.value = value := by
  obtain ⟨part, hpart, hvalue⟩ := Value.require_of_lookup hlookup
  refine ⟨outer.within part, ?_, hvalue⟩
  rw [Part.require, hpart]
  rfl

theorem Part.listAt_of_array {whole : Value} {outer : Part whole} {key : String}
    {items : List Value} (hlookup : outer.value.lookup key = some (.array items)) :
    ∃ parts, outer.listAt key = .ok parts ∧ parts.map Part.value = items := by
  obtain ⟨parts, hparts, rfl⟩ := Value.listAt_of_array hlookup
  refine ⟨parts.map outer.within, ?_, ?_⟩
  · rw [Part.listAt, Value.asRecord_of_lookup hlookup, hparts]
    rfl
  · rw [List.map_map]
    rfl

theorem Part.item_of_array {item : Value} {part : Part whole} {position : Nat}
    (hvalue : part.value = .array items) (hitem : items[position]? = some item) :
    ∃ inner, part.item position = .ok inner ∧ inner.value = item := by
  rw [← Attempt.map_eq_ok_iff, Part.item_map_value, hvalue, Value.item, hitem]

end Debundle
