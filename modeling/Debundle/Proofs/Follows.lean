import Debundle.Proofs.Attempt
import Mathlib.Data.Option.Basic

/-!
# Steps that succeed together

Two passes over similar trees take similar steps.  If every step of the second succeeds
where the step of the first does, with a similar result, then so does the whole pass.
-/

namespace Debundle

open Attempt

variable {ε α β γ δ : Type}

/-- If the first step succeeds, so does the second, and their results are related. -/
def Follows (relation : α → β → Prop) (first : Except ε α) (second : Except ε β) : Prop :=
  ∀ result, first = .ok result → ∃ other, second = .ok other ∧ relation result other

/-- Nothing is asked of two results. -/
def Loosely (_ : α) (_ : β) : Prop :=
  True

namespace Follows

variable {relation : α → β → Prop} {result : γ → δ → Prop} {first : Except ε α}
  {second : Except ε β}

theorem pure {value : α} {other : β} (hrelated : relation value other) :
    Follows relation (Pure.pure value : Except ε α) (Pure.pure other) := by
  rintro _ ⟨⟩
  exact ⟨other, rfl, hrelated⟩

theorem loose {value : α} {other : β} :
    Follows Loosely (Pure.pure value : Except ε α) (Pure.pure other) :=
  pure trivial

theorem error {fault : ε} : Follows relation (.error fault) second := by
  rintro _ ⟨⟩

theorem bind {next : α → Except ε γ} {following : β → Except ε δ}
    (hfirst : Follows relation first second)
    (hnext : ∀ value other, relation value other → Follows result (next value) (following other)) :
    Follows result (first >>= next) (second >>= following) := by
  intro value hvalue
  obtain ⟨between, hbetween, hrest⟩ := bind_eq_ok_iff.1 hvalue
  obtain ⟨other, hother, hrelated⟩ := hfirst between hbetween
  obtain ⟨final, hfinal, hresult⟩ := hnext between other hrelated value hrest
  exact ⟨final, bind_eq_ok_iff.2 ⟨other, hother, hfinal⟩, hresult⟩

/-- Nothing is asked of what is made of the results. -/
theorem loosely {f : α → γ} {g : β → δ} (hfirst : Follows relation first second) :
    Follows Loosely (first >>= fun value => Pure.pure (f value))
      (second >>= fun other => Pure.pure (g other)) :=
  hfirst.bind fun _ _ _ => .loose

theorem map {f : α → γ} {g : β → δ} (hfirst : Follows relation first second)
    (hmap : ∀ value other, relation value other → result (f value) (g other)) :
    Follows result (first.map f) (second.map g) := by
  intro value hvalue
  obtain ⟨between, hbetween, rfl⟩ := map_eq_ok_iff.1 hvalue
  obtain ⟨other, hother, hrelated⟩ := hfirst between hbetween
  exact ⟨g other, map_eq_ok_iff.2 ⟨other, hother, rfl⟩, hmap between other hrelated⟩

/-- Steps follow each other if parts of their results do. -/
theorem of_map {f : α → γ} {g : β → δ} (hmap : Follows result (first.map f) (second.map g)) :
    Follows (fun value other => result (f value) (g other)) first second := by
  intro value hvalue
  obtain ⟨mapped, hmapped, hresult⟩ := hmap (f value) (map_eq_ok_iff.2 ⟨value, hvalue, rfl⟩)
  obtain ⟨other, hother, rfl⟩ := map_eq_ok_iff.1 hmapped
  exact ⟨other, hother, hresult⟩

theorem mono {weaker : α → β → Prop} (hfirst : Follows relation first second)
    (hweaker : ∀ value other, relation value other → weaker value other) :
    Follows weaker first second := by
  intro value hvalue
  obtain ⟨other, hother, hrelated⟩ := hfirst value hvalue
  exact ⟨other, hother, hweaker value other hrelated⟩

/-- The second step is known to have succeeded where its result is used. -/
theorem and_ok (hfirst : Follows relation first second) :
    Follows (fun value other => relation value other ∧ second = .ok other) first second := by
  intro value hvalue
  obtain ⟨other, hother, hrelated⟩ := hfirst value hvalue
  exact ⟨other, hother, hrelated, hother⟩

theorem ite {condition other : Prop} [Decidable condition] [Decidable other]
    {instead : Except ε α} {otherwise : Except ε β} (hcondition : condition ↔ other)
    (hthen : condition → Follows relation first second)
    (helse : ¬ condition → Follows relation instead otherwise) :
    Follows relation (if condition then first else instead)
      (if other then second else otherwise) := by
  by_cases hholds : condition
  · rw [if_pos hholds, if_pos (hcondition.1 hholds)]
    exact hthen hholds
  · rw [if_neg hholds, if_neg (mt hcondition.2 hholds)]
    exact helse hholds

theorem mapM {step : α → Except ε γ} {following : β → Except ε δ} {items : List α}
    {others : List β} (hitems : List.Forall₂ relation items others)
    (hstep : ∀ item other, relation item other → Follows result (step item) (following other)) :
    Follows (List.Forall₂ result) (items.mapM step) (others.mapM following) := by
  induction hitems with
  | nil => exact pure .nil
  | cons hfirst _ ih =>
    rw [List.mapM_cons, List.mapM_cons]
    refine (hstep _ _ hfirst).bind fun value other hvalue => ?_
    exact ih.bind fun values others hvalues => pure (.cons hvalue hvalues)

theorem mapM_zipIdx {step : α × Nat → Except ε γ} {following : β × Nat → Except ε δ}
    {items : List α} {others : List β} (hitems : List.Forall₂ relation items others)
    (hstep : ∀ item other index, relation item other →
      Follows result (step (item, index)) (following (other, index))) :
    Follows (List.Forall₂ result) (items.zipIdx.mapM step) (others.zipIdx.mapM following) := by
  have hindexed : ∀ start, List.Forall₂
      (fun item other => relation item.1 other.1 ∧ item.2 = other.2)
      (items.zipIdx start) (others.zipIdx start) := by
    induction hitems with
    | nil => exact fun _ => .nil
    | cons hfirst _ ih => exact fun start => .cons ⟨hfirst, rfl⟩ (ih (start + 1))
  refine mapM (hindexed 0) fun item other hitem => ?_
  obtain ⟨item, index⟩ := item
  obtain ⟨other, _⟩ := other
  obtain ⟨hrelated, rfl⟩ := hitem
  exact hstep item other index hrelated

end Follows

end Debundle
