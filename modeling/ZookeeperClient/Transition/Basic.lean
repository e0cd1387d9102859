import Mathlib.Logic.Relation
import Mathlib.Data.List.Basic

/-!
# Guarded transition systems

A `System` is given by its initial states and by a set of actions, each with a
guard and an effect. Runs are taken under a *condition* on steps: `Reaches ok`
follows only the steps `(s, a)` with `ok s a`, so that a property of the runs that
avoid some step can be stated in the same words as a property of all runs.

## Main definitions

- `System` — initial states, guards and effects
- `System.Reaches`, `System.Reachable` — runs whose steps meet a condition
- `System.Valid`, `System.exec` — runs along an explicit list of actions
- `System.Inevitable` — every way of taking permitted steps leads to the goal

## Main results

- `Reachable.invariant` — an inductive invariant holds in every reachable state
- `Reachable.invariant_under` — the same, relative to an invariant already proved
- `Reachable.map` — a simulation with stuttering, given by a map of the states
- `Valid.reachable_exec` — a list of enabled actions leads to a reachable state
- `exists_reaches_of_rank` — a rank that some permitted step lowers leads to the goal
- `inevitable_of_rank` — a rank that every permitted step lowers makes the goal inevitable
- `Inevitable.lift` — the same goal in a system with more to its states
-/

namespace Transition

/-- Initial states, and actions with a guard and an effect. -/
structure System (σ : Type*) (α : Type*) where
  /-- The states in which a run may start. -/
  Init : σ → Prop
  /-- The states in which an action may be taken. -/
  Enabled : σ → α → Prop
  /-- The state an action leads to. -/
  next : σ → α → σ

namespace System

variable {σ α : Type*} (M : System σ α)

/-- The condition that every step meets. -/
def anyStep : σ → α → Prop := fun _ _ => True

/-- One step that meets the condition `ok`. -/
def Step (ok : σ → α → Prop) (s s' : σ) : Prop :=
  ∃ a, M.Enabled s a ∧ ok s a ∧ s' = M.next s a

/-- A run from `s` to `s'` all of whose steps meet `ok`. -/
def Reaches (ok : σ → α → Prop) : σ → σ → Prop :=
  Relation.ReflTransGen (M.Step ok)

/-- A state of a run that starts in an initial state and whose steps all meet `ok`. -/
def Reachable (ok : σ → α → Prop) (s : σ) : Prop :=
  ∃ s₀, M.Init s₀ ∧ M.Reaches ok s₀ s

variable {M} {ok ok' : σ → α → Prop} {s s' : σ}

theorem step_intro (M : System σ α) (a : α) (ha : M.Enabled s a) (hok : ok s a) :
    M.Step ok s (M.next s a) :=
  ⟨a, ha, hok, rfl⟩

theorem reaches_single (M : System σ α) (a : α) (ha : M.Enabled s a) (hok : ok s a) :
    M.Reaches ok s (M.next s a) :=
  Relation.ReflTransGen.single (M.step_intro a ha hok)

theorem reaches_head (M : System σ α) (a : α) (ha : M.Enabled s a) (hok : ok s a)
    (h : M.Reaches ok (M.next s a) s') : M.Reaches ok s s' :=
  Relation.ReflTransGen.head (M.step_intro a ha hok) h

theorem reaches_tail (M : System σ α) (a : α) (h : M.Reaches ok s s') (ha : M.Enabled s' a)
    (hok : ok s' a) : M.Reaches ok s (M.next s' a) :=
  Relation.ReflTransGen.tail h (M.step_intro a ha hok)

theorem Reachable.of_init (h : M.Init s) : M.Reachable ok s :=
  ⟨s, h, Relation.ReflTransGen.refl⟩

theorem Reachable.trans (h : M.Reachable ok s) (h' : M.Reaches ok s s') :
    M.Reachable ok s' := by
  obtain ⟨s₀, hinit, hrun⟩ := h
  exact ⟨s₀, hinit, Relation.ReflTransGen.trans hrun h'⟩

theorem Reachable.next (h : M.Reachable ok s) (a : α) (ha : M.Enabled s a)
    (hok : ok s a) : M.Reachable ok (M.next s a) :=
  h.trans (M.reaches_single a ha hok)

/-- What steps preserve holds at the end of a run. -/
theorem Reaches.invariant {I : σ → Prop}
    (hstep : ∀ s a, I s → M.Enabled s a → ok s a → I (M.next s a))
    (h : M.Reaches ok s s') (hs : I s) : I s' := by
  induction h with
  | refl => exact hs
  | tail _ hlast ih =>
    obtain ⟨a, hen, hok, rfl⟩ := hlast
    exact hstep _ a ih hen hok

/-- An inductive invariant holds in every reachable state. -/
theorem Reachable.invariant {I : σ → Prop} (hinit : ∀ s, M.Init s → I s)
    (hstep : ∀ s a, I s → M.Enabled s a → ok s a → I (M.next s a))
    (h : M.Reachable ok s) : I s := by
  obtain ⟨s₀, h₀, hrun⟩ := h
  exact Reaches.invariant hstep hrun (hinit s₀ h₀)

/-- An invariant whose steps may use an invariant `J` that is already known. -/
theorem Reachable.invariant_under {I J : σ → Prop}
    (hJ : ∀ s, M.Reachable ok s → J s) (hinit : ∀ s, M.Init s → I s)
    (hstep : ∀ s a, J s → I s → M.Enabled s a → ok s a → I (M.next s a))
    (h : M.Reachable ok s) : I s := by
  have hboth : M.Reachable ok s ∧ I s := by
    refine Reachable.invariant (I := fun s => M.Reachable ok s ∧ I s) ?_ ?_ h
    · exact fun s hs => ⟨Reachable.of_init hs, hinit s hs⟩
    · exact fun s a ⟨hr, hI⟩ hen hok =>
        ⟨hr.next a hen hok, hstep s a (hJ s hr) hI hen hok⟩
  exact hboth.2

/-- A map that takes every step to a step or to no change takes runs to runs. -/
theorem Reachable.map {τ β : Type*} {N : System τ β} {okN : τ → β → Prop} (f : σ → τ)
    (hinit : ∀ s, M.Init s → N.Init (f s))
    (hstep : ∀ s a, M.Enabled s a → ok s a →
      f (M.next s a) = f s ∨ N.Step okN (f s) (f (M.next s a)))
    (h : M.Reachable ok s) : N.Reachable okN (f s) := by
  refine h.invariant (I := fun s => N.Reachable okN (f s)) ?_ fun s a hr hen hok => ?_
  · exact fun s hs => Reachable.of_init (hinit s hs)
  · obtain hsame | hnext := hstep s a hen hok
    · rwa [hsame]
    · exact hr.trans (Relation.ReflTransGen.single hnext)

/-! ## Runs along a list of actions -/

/-- The state after a list of actions. -/
def exec (M : System σ α) (s : σ) (as : List α) : σ :=
  as.foldl M.next s

/-- Every action of the list is enabled when its turn comes, and its step meets `ok`. -/
def Valid (M : System σ α) (ok : σ → α → Prop) : σ → List α → Prop
  | _, [] => True
  | s, a :: as => M.Enabled s a ∧ ok s a ∧ M.Valid ok (M.next s a) as

instance instDecidableValid [∀ s a, Decidable (M.Enabled s a)]
    [∀ s a, Decidable (ok s a)] : ∀ s as, Decidable (M.Valid ok s as)
  | _, [] => isTrue trivial
  | s, a :: as =>
    have := instDecidableValid (M.next s a) as
    inferInstanceAs (Decidable (M.Enabled s a ∧ ok s a ∧ M.Valid ok (M.next s a) as))

instance : ∀ (s : σ) (a : α), Decidable (anyStep s a) :=
  fun _ _ => isTrue trivial

@[simp] theorem exec_nil (s : σ) : M.exec s [] = s := rfl

@[simp] theorem exec_cons (s : σ) (a : α) (as : List α) :
    M.exec s (a :: as) = M.exec (M.next s a) as := rfl

theorem Valid.reaches_exec {as : List α} (h : M.Valid ok s as) :
    M.Reaches ok s (M.exec s as) := by
  induction as generalizing s with
  | nil => exact Relation.ReflTransGen.refl
  | cons a as ih =>
    obtain ⟨hen, hok, hrest⟩ := h
    exact M.reaches_head a hen hok (ih hrest)

/-- A list of actions enabled one after the other leads to a reachable state. -/
theorem Valid.reachable_exec {as : List α} (hinit : M.Init s) (h : M.Valid ok s as) :
    M.Reachable ok (M.exec s as) :=
  ⟨s, hinit, h.reaches_exec⟩

/-! ## Reaching a goal -/

/-- If in every state of `I` short of the goal some permitted step stays in `I` and
lowers `rank`, then the goal can be reached. -/
theorem exists_reaches_of_rank (M : System σ α) (ok : σ → α → Prop) (I goal : σ → Prop)
    (rank : σ → ℕ)
    (hprogress : ∀ s, I s → ¬goal s →
      ∃ a, M.Enabled s a ∧ ok s a ∧ I (M.next s a) ∧ rank (M.next s a) < rank s)
    (s : σ) (hs : I s) : ∃ s', M.Reaches ok s s' ∧ I s' ∧ goal s' := by
  induction hn : rank s using Nat.strongRecOn generalizing s with
  | ind n ih =>
    by_cases hgoal : goal s
    · exact ⟨s, Relation.ReflTransGen.refl, hs, hgoal⟩
    · obtain ⟨a, hen, hok, hI, hlt⟩ := hprogress s hs hgoal
      obtain ⟨s', hrun, hI', hg'⟩ := ih _ (hn ▸ hlt) _ hI rfl
      exact ⟨s', M.reaches_head a hen hok hrun, hI', hg'⟩

/-- However steps that meet `ok` are chosen, they lead to the goal, and on the way there is
always a `due` step to take. -/
inductive Inevitable (M : System σ α) (ok due : σ → α → Prop) (goal : σ → Prop) : σ → Prop where
  | now (s : σ) (hgoal : goal s) : M.Inevitable ok due goal s
  | later (s : σ) (hdue : ∃ a, M.Enabled s a ∧ due s a)
      (hall : ∀ a, M.Enabled s a → ok s a → M.Inevitable ok due goal (M.next s a)) :
      M.Inevitable ok due goal s

/-- If in every state of `I` short of the goal some step is due, and every permitted step
stays in `I` and lowers `rank`, then the goal is inevitable. -/
theorem inevitable_of_rank (M : System σ α) (ok due : σ → α → Prop) (I goal : σ → Prop)
    (rank : σ → ℕ)
    (hdue : ∀ s, I s → ¬goal s → ∃ a, M.Enabled s a ∧ due s a)
    (hstep : ∀ s a, I s → ¬goal s → M.Enabled s a → ok s a →
      I (M.next s a) ∧ rank (M.next s a) < rank s)
    (s : σ) (hs : I s) : M.Inevitable ok due goal s := by
  induction hn : rank s using Nat.strongRecOn generalizing s with
  | ind n ih =>
    by_cases hgoal : goal s
    · exact .now s hgoal
    · refine .later s (hdue s hs hgoal) fun a hen hok => ?_
      obtain ⟨hI, hlt⟩ := hstep s a hs hgoal hen hok
      exact ih _ (hn ▸ hlt) _ hI rfl

/-- What is inevitable in a system is inevitable in another one whose steps are its steps, as long
as they stay in `I`. -/
theorem Inevitable.lift {τ β : Type*} {N : System τ β} {due : σ → α → Prop} {goal : σ → Prop}
    {okN dueN : τ → β → Prop} (f : τ → σ) (I : τ → Prop)
    (hdue : ∀ t a, I t → M.Enabled (f t) a ∧ due (f t) a → ∃ b, N.Enabled t b ∧ dueN t b)
    (hstep : ∀ t b, I t → N.Enabled t b → okN t b →
      I (N.next t b) ∧ ∃ a, M.Enabled (f t) a ∧ ok (f t) a ∧ f (N.next t b) = M.next (f t) a)
    {t : τ} (ht : I t) (h : M.Inevitable ok due goal (f t)) :
    N.Inevitable okN dueN (fun t => goal (f t)) t := by
  generalize hs : f t = s at h
  induction h generalizing t with
  | now s hgoal => exact .now t (hs ▸ hgoal)
  | later s hnext _ ih =>
    subst hs
    obtain ⟨a, ha⟩ := hnext
    refine .later t (hdue t a ht ha) fun b hen hok => ?_
    obtain ⟨hI, a', hen', hok', heq⟩ := hstep t b ht hen hok
    exact ih a' hen' hok' hI heq

end System

end Transition
