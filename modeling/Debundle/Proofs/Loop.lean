/-!
# Loops

A loop changes a state round by round as long as a condition holds.  Nothing but the condition
bounds the rounds, so that a loop ends is a fact about the loop and the state it starts from.
-/

namespace Debundle

structure Loop (σ : Type) where
  goesOn : σ → Bool
  round : σ → σ

namespace Loop

variable {σ : Type} {loop : Loop σ}

/-- The loop ends after exactly this number of rounds, from the first state in the last. -/
inductive EndsAfter (loop : Loop σ) : Nat → σ → σ → Prop where
  | stop {state : σ} : loop.goesOn state = false → EndsAfter loop 0 state state
  | round {rounds : Nat} {state final : σ} : loop.goesOn state = true →
      EndsAfter loop rounds (loop.round state) final → EndsAfter loop (rounds + 1) state final

/-- A loop that runs through the given states ends at the first one where it stops. -/
theorem EndsAfter.of_states {rounds : Nat} (states : Nat → σ)
    (hround : ∀ index, loop.round (states index) = states (index + 1))
    (hgoes : ∀ index < rounds, loop.goesOn (states index) = true)
    (hstops : loop.goesOn (states rounds) = false) :
    loop.EndsAfter rounds (states 0) (states rounds) := by
  induction rounds generalizing states with
  | zero => exact .stop hstops
  | succ rounds ih =>
    have hrest : loop.EndsAfter rounds (states 1) (states (rounds + 1)) :=
      ih (fun index => states (index + 1)) (fun index => hround (index + 1))
        (fun index hindex => hgoes (index + 1) (Nat.succ_lt_succ hindex)) hstops
    exact .round (hgoes 0 (Nat.succ_pos rounds)) (hround 0 ▸ hrest)

end Loop

end Debundle
