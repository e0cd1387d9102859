import Mathlib.Algebra.BigOperators.Group.Finset.Piecewise
import Mathlib.Algebra.Order.BigOperators.Group.Finset
import Mathlib.Data.Finset.Range

/-!
# Sums over numbered parties

Parties that come into being one after the other are numbered, and their local states are a
function of the number. A sum over all of them, such as a rank or a number of parties at some
place, changes with a step of one party by what that party's share changes.

## Main definitions

- `total` — the sum of a weight over the first `n` parties

## Main results

- `total_update` — one party moves
- `total_succ` — a new party
- `exists_pos_of_total_pos`, `le_total` — parties with a positive weight
-/

namespace Transition

variable {β : Type*}

/-- The sum of the weights of the first `n` parties. -/
def total (weight : β → ℕ) (n : ℕ) (f : ℕ → β) : ℕ :=
  ∑ c ∈ Finset.range n, weight (f c)

variable (weight : β → ℕ) {n : ℕ} {f : ℕ → β}

/-- The sum changes by what the share of one party changes. -/
theorem total_update {c : ℕ} (hc : c < n) (x : β) :
    total weight n (Function.update f c x) + weight (f c) = total weight n f + weight x := by
  have hmem : c ∈ Finset.range n := Finset.mem_range.2 hc
  have hshare (i : ℕ) : weight (Function.update f c x i) =
      Function.update (fun i => weight (f i)) c (weight x) i := by
    by_cases hi : i = c
    · simp [hi]
    · simp [hi]
  have hold : total weight n f = weight (f c) + ∑ i ∈ Finset.range n \ {c}, weight (f i) :=
    Finset.sum_eq_add_sum_sdiff_singleton_of_mem hmem _
  have hnew : total weight n (Function.update f c x) =
      weight x + ∑ i ∈ Finset.range n \ {c}, weight (f i) := by
    rw [total, Finset.sum_congr rfl fun i _ => hshare i, Finset.sum_update_of_mem hmem]
  omega

/-- A new party brings its own share. -/
theorem total_succ (x : β) :
    total weight (n + 1) (Function.update f n x) = total weight n f + weight x := by
  unfold total
  rw [Finset.sum_range_succ, Function.update_self]
  congr 1
  refine Finset.sum_congr rfl fun c hc => ?_
  rw [Function.update_of_ne (Finset.mem_range.1 hc).ne]

theorem le_total {c : ℕ} (hc : c < n) : weight (f c) ≤ total weight n f :=
  Finset.single_le_sum (fun i _ => Nat.zero_le (weight (f i))) (Finset.mem_range.2 hc)

theorem exists_pos_of_total_pos (h : 0 < total weight n f) : ∃ c < n, 0 < weight (f c) := by
  by_contra hnone
  have hzero : ∀ c ∈ Finset.range n, weight (f c) = 0 := fun c hc =>
    Nat.eq_zero_of_not_pos fun hpos => hnone ⟨c, Finset.mem_range.1 hc, hpos⟩
  rw [total, Finset.sum_eq_zero hzero] at h
  exact absurd h (lt_irrefl 0)

end Transition
