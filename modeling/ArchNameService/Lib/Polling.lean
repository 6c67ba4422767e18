import Mathlib.Logic.Basic

/-!
# Loops that poll until they have an outcome

Each round either ends the loop or leaves a state for the next one. What holds of
the state before each round holds before the last, and a loop that can only go on
for so many rounds ends.
-/

namespace Polling

variable {σ ρ : Type} (poll : Nat → σ → ρ ⊕ σ)

/-- The outcome of the loop from round `n` on, and the number of rounds in all. -/
def run : Nat → Nat → σ → Option (ρ × Nat)
  | 0, _, _ => none
  | fuel + 1, n, s =>
      match poll n s with
      | .inl outcome => some (outcome, n + 1)
      | .inr s' => run fuel (n + 1) s'

variable {poll}

theorem run_done {fuel n : Nat} {s : σ} {outcome : ρ} (h : poll n s = .inl outcome) :
    run poll (fuel + 1) n s = some (outcome, n + 1) := by
  unfold run
  rw [h]

theorem run_again {fuel n : Nat} {s s' : σ} (h : poll n s = .inr s') :
    run poll (fuel + 1) n s = run poll fuel (n + 1) s' := by
  rw [run, h]

/-- What an invariant of the rounds gives once the loop has ended. -/
theorem run_invariant {Inv : Nat → σ → Prop}
    (hstep : ∀ n s s', Inv n s → poll n s = .inr s' → Inv (n + 1) s') {fuel n : Nat} {s : σ}
    {outcome : ρ} {rounds : Nat} (hs : Inv n s) (h : run poll fuel n s = some (outcome, rounds)) :
    ∃ last s', Inv last s' ∧ poll last s' = .inl outcome := by
  induction fuel generalizing n s with
  | zero => exact nomatch h
  | succ fuel ih =>
      cases hpoll : poll n s with
      | inl outcome' =>
          rw [run_done hpoll] at h
          cases h
          exact ⟨n, s, hs, hpoll⟩
      | inr s' =>
          rw [run_again hpoll] at h
          exact ih (hstep n s s' hs hpoll) h

/-- The rule of a loop: an invariant of its rounds, and a bound on those that go on. -/
theorem run_ends {Inv : Nat → σ → Prop} {bound : Nat}
    (hstep : ∀ n s s', Inv n s → poll n s = .inr s' → n < bound ∧ Inv (n + 1) s')
    {n : Nat} {s : σ} (hn : n ≤ bound) (hs : Inv n s) :
    ∃ outcome last s', n ≤ last ∧ last ≤ bound ∧ Inv last s' ∧ poll last s' = .inl outcome ∧
      ∀ fuel, last < n + fuel → run poll fuel n s = some (outcome, last + 1) := by
  -- on the rounds that are left
  induction hleft : bound - n using Nat.strongRecOn generalizing n s with
  | ind left ih =>
      cases h : poll n s with
      | inl outcome =>
          refine ⟨outcome, n, s, Nat.le_refl n, hn, hs, h, ?_⟩
          intro fuel hfuel
          obtain ⟨fuel, rfl⟩ := Nat.exists_eq_succ_of_ne_zero (n := fuel) (by omega)
          exact run_done h
      | inr s' =>
          obtain ⟨hlt, hs'⟩ := hstep n s s' hs h
          obtain ⟨outcome, last, t, hle, hlast, hinv, hpoll, hrun⟩ :=
            ih (bound - (n + 1)) (by omega) hlt hs' rfl
          refine ⟨outcome, last, t, by omega, hlast, hinv, hpoll, ?_⟩
          intro fuel hfuel
          obtain ⟨fuel, rfl⟩ := Nat.exists_eq_succ_of_ne_zero (n := fuel) (by omega)
          rw [run_again h]
          exact hrun fuel (by omega)

end Polling
