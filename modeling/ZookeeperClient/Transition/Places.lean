import Mathlib.Data.Nat.Notation
import Mathlib.Tactic.ByContra

/-!
# Tokens at places

A token, named by a key, travels from place to place. `count p k` says how often the
token `k` lies at the place `p`. The tokens are `Placed` when each of them is at one
place at most and lies there once.

## Main definitions

- `Placed` — every token is at most once at at most one place
- `Moved` — one token goes from one place to another

## Main results

- `Placed.relocate` — tokens may be brought together at a place from anywhere
- `Placed.move` — a move keeps the tokens placed
- `Placed.enter` — a token that was nowhere appears
-/

namespace Transition

variable {π κ : Type*}

/-- Every token is at most once at at most one place. -/
structure Placed (count : π → κ → ℕ) : Prop where
  le_one : ∀ p k, count p k ≤ 1
  unique : ∀ {p q k}, 0 < count p k → 0 < count q k → p = q

/-- The token `k` leaves `p` and arrives at `q`; no other token is added anywhere. -/
structure Moved (count count' : π → κ → ℕ) (p q : π) (k : κ) : Prop where
  ne : p ≠ q
  left : count' p k < count p k
  arrived : count' q k ≤ count q k + 1
  rest : ∀ p' k', ¬(p' = q ∧ k' = k) → count' p' k' ≤ count p' k'

namespace Placed

variable {count count' : π → κ → ℕ} {p q : π} {k : κ}

/-- The tokens in `M` end up at `q`, and no other token is added anywhere. -/
theorem relocate (h : Placed count) {M : κ → Prop}
    (hM : ∀ k, M k → count' q k ≤ 1 ∧ ∀ p, p ≠ q → count' p k = 0)
    (hrest : ∀ k, ¬M k → ∀ p, count' p k ≤ count p k) : Placed count' where
  le_one p k := by
    by_cases hk : M k
    · by_cases hp : p = q
      · exact hp ▸ (hM k hk).1
      · rw [(hM k hk).2 p hp]
        exact Nat.zero_le 1
    · exact Nat.le_trans (hrest k hk p) (h.le_one p k)
  unique {p p' k} hp hp' := by
    by_cases hk : M k
    · have hat (r : π) (hr : 0 < count' r k) : r = q := by
        by_contra hne
        rw [(hM k hk).2 r hne] at hr
        exact Nat.lt_irrefl 0 hr
      rw [hat p hp, hat p' hp']
    · exact h.unique (Nat.lt_of_lt_of_le hp (hrest k hk p))
        (Nat.lt_of_lt_of_le hp' (hrest k hk p'))

theorem anti (h : Placed count) (hle : ∀ p k, count' p k ≤ count p k) : Placed count' where
  le_one p k := Nat.le_trans (hle p k) (h.le_one p k)
  unique {p p' k} hp hp' :=
    h.unique (Nat.lt_of_lt_of_le hp (hle p k)) (Nat.lt_of_lt_of_le hp' (hle p' k))

/-- A token leaves a place for another, and no other token is added anywhere. -/
theorem move (h : Placed count) (hm : Moved count count' p q k) : Placed count' := by
  have hpk := h.le_one p k
  have hleft := hm.left
  have hqk : count q k = 0 := by
    by_contra hsome
    exact hm.ne (h.unique (by omega) (Nat.pos_of_ne_zero hsome))
  refine h.relocate (M := fun j => k = j) (q := q) ?_ ?_
  · rintro _ rfl
    have harrived := hm.arrived
    refine ⟨by omega, fun p' hne => ?_⟩
    have hle := hm.rest p' k fun hh => hne hh.1
    by_cases hpp : p' = p
    · subst hpp
      omega
    · -- the token was not at any third place
      have hnone : count p' k = 0 := by
        by_contra hsome
        exact hpp (h.unique (Nat.pos_of_ne_zero hsome) (by omega))
      omega
  · exact fun j hj p' => hm.rest p' j fun hh => hj hh.2.symm

theorem enter (h : Placed count) (hnone : ∀ p, count p k = 0) (hq : count' q k ≤ 1)
    (hle : ∀ p' k', ¬(p' = q ∧ k' = k) → count' p' k' ≤ count p' k') : Placed count' := by
  refine h.relocate (M := fun j => k = j) (q := q) ?_ ?_
  · rintro _ rfl
    refine ⟨hq, fun p' hne => ?_⟩
    have := hle p' k fun hh => hne hh.1
    rw [hnone p'] at this
    exact Nat.le_zero.mp this
  · exact fun j hj p' => hle p' j fun hh => hj hh.2.symm

end Placed

end Transition
