import Debundle.Naming.Path
import Debundle.Naming.Registry
import Debundle.Proofs.Tree.Position

/-!
# Literals that are too long

A script may hold any literal, but a numeral is read only up to a number of digits, and
an integer is written only up to as many.  A pass over a well-formed script fails only at
such a literal; whatever it does elsewhere, it returns.
-/

namespace Debundle

/-- A step returns, or fails with one of the faults that are allowed. -/
def ReturnsOr {α : Type} (allowed : Fault → Prop) (step : Except Fault α) : Prop :=
  (∃ result, step = .ok result) ∨ ∃ fault, allowed fault ∧ step = .error fault

namespace ReturnsOr

variable {α β : Type} {allowed : Fault → Prop} {step : Except Fault α}

theorem ok (result : α) : ReturnsOr allowed (.ok result) :=
  .inl ⟨result, rfl⟩

theorem bind {next : α → Except Fault β} (hstep : ReturnsOr allowed step)
    (hnext : ∀ result, step = .ok result → ReturnsOr allowed (next result)) :
    ReturnsOr allowed (step >>= next) := by
  rcases hstep with ⟨result, hresult⟩ | ⟨fault, hfault, herror⟩
  · rw [hresult]
    exact hnext result hresult
  · rw [herror]
    exact .inr ⟨fault, hfault, rfl⟩

theorem of_error (herror : ∀ fault, step = .error fault → allowed fault) :
    ReturnsOr allowed step := by
  cases hstep : step with
  | ok result => exact .ok result
  | error fault => exact .inr ⟨fault, herror fault hstep, rfl⟩

/-- A step for every item of a list returns if each of them does. -/
theorem mapM {f : α → Except Fault β} {items : List α}
    (hitems : ∀ item ∈ items, ReturnsOr allowed (f item)) : ReturnsOr allowed (items.mapM f) := by
  induction items with
  | nil => exact .ok []
  | cons item rest ih =>
    rw [List.mapM_cons]
    apply (hitems item List.mem_cons_self).bind
    intro head _
    apply (ih fun other hother => hitems other (List.mem_cons_of_mem item hother)).bind
    intro tail _
    exact .ok (head :: tail)

end ReturnsOr

namespace Value

/-- The value that a literal stands for. -/
def constant (literal : Value) : Value :=
  (literal.lookup "value").getD .null

/-- Reading the literals inside a value fails only as allowed. -/
def Allows {α : Type} (read : Value → Except Fault α) (allowed : Fault → Prop) (value : Value) :
    Prop :=
  ∀ position literal fault, value.at? position = some literal → literal.kind = .literal →
    read literal.constant = .error fault → allowed fault

variable {α : Type} {read : Value → Except Fault α} {allowed : Fault → Prop} {value part : Value}

theorem Allows.at {position : Position} (hallows : value.Allows read allowed)
    (hat : value.at? position = some part) : part.Allows read allowed := by
  intro below literal fault hliteral hkind hfault
  apply hallows (position ++ below) literal fault _ hkind hfault
  rw [at?_append, hat]
  exact hliteral

theorem Allows.child {step : Step} (hallows : value.Allows read allowed)
    (hpart : value.child? step = some part) : part.Allows read allowed := by
  have hat : value.at? [step] = some part := by
    rw [at?_cons, hpart]
    rfl
  exact hallows.at hat

theorem Allows.self (hallows : value.Allows read allowed) (hkind : value.kind = .literal) :
    ReturnsOr allowed (read value.constant) :=
  .of_error fun fault => hallows [] value fault rfl hkind

/-- The value is a numeral with more digits than are read, or an integer with more digits
than are written. -/
def isOverlong : Value → Bool
  | .text content =>
    content.toList.all Char.isDigit && decide (numeralLimit < content.toList.length)
  | .int integer => decide (writtenLimit ≤ integer.natAbs)
  | _ => false

theorem moduleIndex_eq_error {fault : Fault} (herror : moduleIndex value = .error fault) :
    ∃ numeral, value = .text numeral ∧ numeral.toList.all Char.isDigit = true ∧
      numeralLimit < numeral.toList.length ∧ fault = .tooManyDigits numeral.toList.length := by
  cases value with
  | text content =>
    simp only [moduleIndex] at herror
    split at herror
    · rename_i hdigits
      rw [Bool.and_eq_true] at hdigits
      split at herror
      · rename_i hlong
        cases herror
        exact ⟨content, rfl, hdigits.2, hlong, rfl⟩
      · split at herror <;> cases herror
    · cases herror
  | _ => cases herror

theorem literalStep_eq_error {fault : Fault} (herror : value.literalStep = .error fault) :
    value.isOverlong = true ∧ fault = .integerTooLong := by
  cases value with
  | int integer =>
    simp only [literalStep] at herror
    split at herror
    · cases herror
    · rename_i hlong
      cases herror
      refine ⟨?_, rfl⟩
      rw [isOverlong, decide_eq_true_eq]
      exact Nat.le_of_not_lt hlong
  | _ => cases herror

end Value

end Debundle
