import Mathlib.Tactic.Common

/-!
# Outcomes of procedures

A procedure on a state ends with a result or a fault, and leaves a state behind in either
case.  What is known of its parts is put together here, so that no proof about a procedure
has to open the way in which state and failure are combined.
-/

namespace Debundle

/-- A procedure that works on a state and may fail.  A failure keeps the state. -/
abbrev Procedure (ε σ α : Type) := ExceptT ε (StateM σ) α

namespace Procedure

variable {ε σ α β : Type} {procedure first : Procedure ε σ α} {next : α → Procedure ε σ β}
  {handler : ε → Procedure ε σ α} {state between after : σ}

/-- How a procedure ends, and the state that it leaves. -/
def outcome (procedure : Procedure ε σ α) (state : σ) : Except ε α × σ :=
  procedure.run.run state

@[simp]
theorem outcome_pure (value : α) :
    outcome (pure value : Procedure ε σ α) state = (.ok value, state) :=
  rfl

@[simp]
theorem outcome_throw (fault : ε) :
    outcome (throw fault : Procedure ε σ α) state = (.error fault, state) :=
  rfl

@[simp]
theorem outcome_set (other : σ) :
    outcome (set other : Procedure ε σ PUnit) state = (.ok ⟨⟩, other) :=
  rfl

@[simp]
theorem outcome_get_bind (next : σ → Procedure ε σ β) :
    outcome (get >>= next) state = outcome (next state) state :=
  rfl

theorem outcome_bind_of_ok {value : α} (hfirst : outcome first state = (.ok value, between)) :
    outcome (first >>= next) state = outcome (next value) between := by
  rw [outcome] at hfirst
  simp only [outcome, ExceptT.run_bind, StateT.run_bind, hfirst]
  rfl

theorem outcome_bind_of_error {fault : ε} (hfirst : outcome first state = (.error fault, between)) :
    outcome (first >>= next) state = (.error fault, between) := by
  rw [outcome] at hfirst
  simp only [outcome, ExceptT.run_bind, StateT.run_bind, hfirst]
  rfl

theorem outcome_tryCatch_of_ok {value : α}
    (hprocedure : outcome procedure state = (.ok value, between)) :
    outcome (tryCatch procedure handler) state = (.ok value, between) := by
  rw [outcome] at hprocedure
  simp only [outcome, ExceptT.run_tryCatch, StateT.run_bind, hprocedure]
  rfl

theorem outcome_tryCatch_of_error {fault : ε}
    (hprocedure : outcome procedure state = (.error fault, between)) :
    outcome (tryCatch procedure handler) state = outcome (handler fault) between := by
  rw [outcome] at hprocedure
  simp only [outcome, ExceptT.run_tryCatch, StateT.run_bind, hprocedure]
  rfl

theorem outcome_ofExcept (result : Except ε α) :
    outcome (MonadExcept.ofExcept result : Procedure ε σ α) state = (result, state) := by
  cases result <;> rfl

/-- What is done at last is done whether the procedure fails or not. -/
theorem outcome_tryFinally {ending : Except ε α} {last : Procedure ε σ PUnit}
    (hprocedure : outcome procedure state = (ending, between))
    (hlast : outcome last between = (.ok ⟨⟩, after)) :
    outcome (tryFinally procedure last) state = (ending, after) := by
  calc outcome (tryFinally procedure last) state
      = outcome (tryFinally (fun _ => outcome procedure state : Procedure ε σ α) last) state := rfl
    _ = outcome (tryFinally (fun _ => (ending, between) : Procedure ε σ α) last) state := by
        rw [hprocedure]
    _ = outcome (tryFinally (fun _ => (ending, between) : Procedure ε σ α)
          (fun _ => outcome last between : Procedure ε σ PUnit)) state := by
        cases ending <;> rfl
    _ = (ending, after) := by
        rw [hlast]
        cases ending <;> rfl

/-- A failure that is noted is no failure. -/
theorem outcome_observing {ending : Except ε α}
    (hprocedure : outcome procedure state = (ending, between)) :
    outcome (observing procedure) state = (.ok ending, between) := by
  cases ending with
  | ok value => exact outcome_tryCatch_of_ok (outcome_bind_of_ok hprocedure)
  | error fault => exact outcome_tryCatch_of_error (outcome_bind_of_error hprocedure)

/-- Parts that leave the state alone make a whole that leaves it alone. -/
theorem outcome_bind_of_steady {result : Except ε α} {rest : α → Except ε β}
    (hfirst : outcome first state = (result, state))
    (hnext : ∀ value, outcome (next value) state = (rest value, state)) :
    outcome (first >>= next) state = (result >>= rest, state) := by
  cases result with
  | ok value => exact (outcome_bind_of_ok hfirst).trans (hnext value)
  | error fault => exact outcome_bind_of_error hfirst

theorem outcome_mapM_of_steady {γ : Type} {step : γ → Procedure ε σ α} {result : γ → Except ε α}
    (hstep : ∀ item, outcome (step item) state = (result item, state)) (items : List γ) :
    outcome (items.mapM step) state = (items.mapM result, state) := by
  induction items with
  | nil => rfl
  | cons item rest ih =>
    rw [List.mapM_cons, List.mapM_cons]
    refine outcome_bind_of_steady (hstep item) fun value => ?_
    exact outcome_bind_of_steady ih fun _ => rfl

/-- A procedure that goes through has gone through its first part. -/
theorem bind_eq_ok_iff {result : β} :
    outcome (first >>= next) state = (.ok result, after) ↔
      ∃ value between, outcome first state = (.ok value, between) ∧
        outcome (next value) between = (.ok result, after) := by
  constructor
  · intro hbind
    cases hfirst : outcome first state with
    | mk ending between =>
      cases ending with
      | ok value => exact ⟨value, between, rfl, outcome_bind_of_ok hfirst ▸ hbind⟩
      | error fault =>
        rw [outcome_bind_of_error hfirst] at hbind
        cases hbind
  · rintro ⟨value, between, hfirst, hnext⟩
    rw [outcome_bind_of_ok hfirst, hnext]

/-- However the procedure ends, the states before and after it are related. -/
def Respects (relation : σ → σ → Prop) (procedure : Procedure ε σ α) : Prop :=
  ∀ state, relation state (outcome procedure state).2

theorem Respects.of_outcome {relation : σ → σ → Prop} {ending : Except ε α}
    (hrespects : Respects relation procedure) (hrun : outcome procedure state = (ending, after)) :
    relation state after := by
  have hrelated := hrespects state
  rwa [hrun] at hrelated

namespace Respects

variable {relation : σ → σ → Prop} [Std.Refl relation] [IsTrans σ relation]

omit [IsTrans σ relation] in
theorem pure (value : α) : Respects relation (Pure.pure value : Procedure ε σ α) :=
  fun state => refl state

omit [IsTrans σ relation] in
theorem throw (fault : ε) : Respects relation (MonadExcept.throw fault : Procedure ε σ α) :=
  fun state => refl state

omit [IsTrans σ relation] in
theorem get : Respects relation (MonadState.get : Procedure ε σ σ) :=
  fun state => refl state

omit [Std.Refl relation] [IsTrans σ relation] in
theorem ite {condition : Prop} [Decidable condition] {other : Procedure ε σ α}
    (hprocedure : Respects relation procedure) (hother : Respects relation other) :
    Respects relation (if condition then procedure else other) := by
  by_cases hcondition : condition
  · rwa [if_pos hcondition]
  · rwa [if_neg hcondition]

omit [Std.Refl relation] in
theorem bind (hfirst : Respects relation first) (hnext : ∀ value, Respects relation (next value)) :
    Respects relation (first >>= next) := by
  intro state
  have hbefore := hfirst state
  cases houtcome : outcome first state with
  | mk ending between =>
    rw [houtcome] at hbefore
    cases ending with
    | ok value =>
      rw [outcome_bind_of_ok houtcome]
      exact IsTrans.trans _ _ _ hbefore (hnext value between)
    | error fault =>
      rw [outcome_bind_of_error houtcome]
      exact hbefore

omit [Std.Refl relation] in
theorem tryCatch (hprocedure : Respects relation procedure)
    (hhandler : ∀ fault, Respects relation (handler fault)) :
    Respects relation (MonadExcept.tryCatch procedure handler) := by
  intro state
  have hbefore := hprocedure state
  cases houtcome : outcome procedure state with
  | mk ending between =>
    rw [houtcome] at hbefore
    cases ending with
    | ok value =>
      rw [outcome_tryCatch_of_ok houtcome]
      exact hbefore
    | error fault =>
      rw [outcome_tryCatch_of_error houtcome]
      exact IsTrans.trans _ _ _ hbefore (hhandler fault between)

end Respects

end Procedure

end Debundle
