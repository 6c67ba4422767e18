import Mathlib.Algebra.BigOperators.Group.Finset.Piecewise
import Mathlib.Algebra.Order.BigOperators.Group.Finset

/-!
# Balances

The worth of a map from finitely many accounts, and how it follows the
replacement of single entries.
-/

namespace Balance

variable {α β : Type*} [Fintype α]

/-- What all entries are worth together. -/
def sum (worth : β → Nat) (f : α → β) : Nat := ∑ k, worth (f k)

variable {worth : β → Nat} {f g : α → β}

theorem sum_congr (h : ∀ k, worth (g k) = worth (f k)) : sum worth g = sum worth f :=
  Finset.sum_congr rfl fun k _ => h k

theorem sum_eq_zero (h : ∀ k, worth (f k) = 0) : sum worth f = 0 :=
  Finset.sum_eq_zero fun k _ => h k

/-- Replacing an entry takes out what it was worth and brings in what it is worth now. -/
theorem sum_update [DecidableEq α] (worth : β → Nat) (f : α → β) (k : α) (x : β) :
    sum worth (Function.update f k x) + worth (f k) = sum worth f + worth x := by
  have hupdate : (fun j => worth (Function.update f k x j)) =
      Function.update (fun j => worth (f j)) k (worth x) := by
    funext j
    exact Function.apply_update (fun _ => worth) f k x j
  have herase := Finset.add_sum_erase Finset.univ (fun j => worth (f j)) (Finset.mem_univ k)
  simp only [sum, hupdate, Finset.sum_update_of_mem (Finset.mem_univ k),
    Finset.sdiff_singleton_eq_erase]
  omega

/-- Any two entries fit together in the sum. -/
theorem add_le_sum [DecidableEq α] {j k : α} (hne : j ≠ k) :
    worth (f j) + worth (f k) ≤ sum worth f := by
  have hpair := Finset.sum_pair (f := fun i => worth (f i)) hne
  rw [← hpair]
  exact Finset.sum_le_sum_of_subset (Finset.subset_univ _)

end Balance
