import Mathlib.Logic.Function.Basic
import Mathlib.Data.Nat.Notation

/-!
# Monitors

A `Monitor` of Ruby's `monitor.rb` with one condition variable. Its owner may enter it once
more; `wait` gives it up altogether, however often it has been entered, and a thread that comes
back from `wait` has it as often as before.

## Main definitions

- `Monitor` — who holds the monitor, who waits, and who has been woken
- `Monitor.enter`, `exit`, `wait`, `broadcast`, `resume` — what the threads do
-/

namespace ZookeeperClient

/-- A monitor. A count is the number of times a thread has entered once more. -/
structure Monitor (τ : Type*) where
  /-- The owner with its count. -/
  held : Option (τ × ℕ)
  /-- The threads in `wait` with the counts they have given up. -/
  waiting : τ → Option ℕ
  /-- The threads that have been woken and have not come back, with their counts. -/
  signalled : τ → Option ℕ

namespace Monitor

variable {τ : Type*}

def new : Monitor τ where
  held := none
  waiting := fun _ => none
  signalled := fun _ => none

def owner (m : Monitor τ) : Option τ :=
  m.held.map Prod.fst

/-- `mon_enter` does not block thread `t`. -/
def CanEnter (t : τ) (m : Monitor τ) : Prop :=
  m.owner = none ∨ m.owner = some t

/-- `mon_enter` by thread `t`. -/
def enter (t : τ) (m : Monitor τ) : Monitor τ :=
  { m with
    held :=
      match m.held with
      | some (t', n) => some (t', n + 1)
      | none => some (t, 0) }

/-- `mon_exit` by the owner. -/
def exit (m : Monitor τ) : Monitor τ :=
  { m with
    held :=
      match m.held with
      | some (t, n + 1) => some (t, n)
      | _ => none }

/-- The begin of `wait` by thread `t`, the owner. -/
def wait [DecidableEq τ] (t : τ) (m : Monitor τ) : Monitor τ :=
  { m with
    held := none
    waiting := Function.update m.waiting t (m.held.map Prod.snd) }

def broadcast (m : Monitor τ) : Monitor τ :=
  { m with
    waiting := fun _ => none
    signalled := fun t => m.waiting t <|> m.signalled t }

/-- The end of `wait` in thread `t`, which has been woken. -/
def resume [DecidableEq τ] (t : τ) (m : Monitor τ) : Monitor τ :=
  { m with
    held := (m.signalled t).map fun n => (t, n)
    signalled := Function.update m.signalled t none }

variable {m : Monitor τ} {t t' : τ} {n : ℕ}

theorem owner_of_held (h : m.held = some (t, n)) : m.owner = some t := by
  simp [owner, h]

theorem held_of_owner_none (h : m.owner = none) : m.held = none := by
  simpa [owner] using h

theorem held_enter_of_not_owner (h : m.CanEnter t) (hne : m.owner ≠ some t) :
    (m.enter t).held = some (t, 0) := by
  have hfree := held_of_owner_none (h.resolve_right hne)
  simp [enter, hfree]

theorem held_enter_of_held (h : m.held = some (t, n)) : (m.enter t).held = some (t, n + 1) := by
  simp [enter, h]

/-- What one thread enters is not held by another one, before or after. -/
theorem held_enter_iff (h : m.CanEnter t) (hne : t' ≠ t) :
    (m.enter t).held = some (t', n) ↔ m.held = some (t', n) := by
  unfold enter
  cases hheld : m.held with
  | none => simp [hne.symm]
  | some p =>
    obtain ⟨t'', n''⟩ := p
    obtain h | h := h
    · simp [owner, hheld] at h
    · obtain rfl : t'' = t := by simpa [owner, hheld] using h
      simp [hne.symm]

/-- What one thread leaves is not held by another one, before or after. -/
theorem held_exit_iff (h : m.owner = some t) (hne : t' ≠ t) :
    m.exit.held = some (t', n) ↔ m.held = some (t', n) := by
  unfold exit
  cases hheld : m.held with
  | none => simp
  | some p =>
    obtain ⟨t'', _ | n''⟩ := p <;>
      obtain rfl : t'' = t := by simpa [owner, hheld] using h
    · simp [hne.symm]
    · simp [hne.symm]

end Monitor

end ZookeeperClient
