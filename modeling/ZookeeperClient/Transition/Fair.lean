import Mathlib.Data.Nat.Init
import Mathlib.Order.MinMax
import ZookeeperClient.Transition.Basic

/-!
# Fair runs

An infinite run of a system takes a step or none at each moment. The steps of one party are treated
fairly if they do not wait forever: when from some moment on one of them could always be taken, then
one of them is taken at last. Which steps these are may depend on the state.

A party makes its way to a goal if its steps lower a rank that the steps of the others do not raise.

## Main definitions

- `System.Run` — an infinite run
- `Run.WeaklyFair` — some steps are treated fairly
- `Run.From` — the steps from a moment on meet a condition
- `Run.history` — what the steps before a moment have brought
- `System.startingAt` — the runs that start in a given state
- `Run.ofList` — a run that comes to rest

## Main results

- `Run.reachable` — what holds of every reachable state holds at each moment
- `Run.eventually_of_rank` — the goal is reached at last
- `Run.weaklyFair_ofList` — a run that rests where nothing is due is fair
-/

namespace Transition

namespace System

variable {σ α : Type*}

/-- A run with a state for each moment, and the step taken there, if any. -/
structure Run (M : System σ α) (ok : σ → α → Prop) where
  state : ℕ → σ
  act : ℕ → Option α
  init : M.Init (state 0)
  rest {n : ℕ} (h : act n = none) : state (n + 1) = state n
  step {n : ℕ} {a : α} (h : act n = some a) :
    M.Enabled (state n) a ∧ ok (state n) a ∧ state (n + 1) = M.next (state n) a

/-- The system with one state to start in. -/
def startingAt (M : System σ α) (s : σ) : System σ α :=
  { M with Init := fun s' => s' = s }

namespace Run

variable {M : System σ α} {ok due : σ → α → Prop}

/-- Steps that are due from some moment on are not put off forever. -/
def WeaklyFair (r : M.Run ok) (due : σ → α → Prop) : Prop :=
  ∀ n, (∀ m, n ≤ m → ∃ a, M.Enabled (r.state m) a ∧ due (r.state m) a) →
    ∃ m a, n ≤ m ∧ r.act m = some a ∧ due (r.state m) a

theorem reachable (r : M.Run ok) (n : ℕ) : M.Reachable ok (r.state n) := by
  induction n with
  | zero => exact .of_init r.init
  | succ n ih =>
    cases hact : r.act n with
    | none => exact r.rest hact ▸ ih
    | some a =>
      obtain ⟨hen, hok, hnext⟩ := r.step hact
      exact hnext ▸ ih.next a hen hok

/-- What the steps before a moment have brought, in their order. -/
def history {β : Type*} (r : M.Run ok) (f : α → List β) : ℕ → List β
  | 0 => []
  | n + 1 => r.history f n ++ (r.act n).elim [] f

theorem history_prefix {β : Type*} (r : M.Run ok) (f : α → List β) {n m : ℕ} (h : n ≤ m) :
    r.history f n <+: r.history f m := by
  induction m, h using Nat.le_induction with
  | base => exact List.prefix_rfl
  | succ m _ ih => exact ih.trans (List.prefix_append _ _)

/-- What every step keeps in step with the history is so at each moment. -/
theorem eq_history {β : Type*} (r : M.Run ok) (f : α → List β) (g : σ → List β)
    (hstep : ∀ s a, M.Reachable ok s → M.Enabled s a → ok s a → g (M.next s a) = g s ++ f a)
    (n : ℕ) : g (r.state n) = g (r.state 0) ++ r.history f n := by
  induction n with
  | zero => exact (List.append_nil _).symm
  | succ n ih =>
    cases hact : r.act n with
    | none => rw [r.rest hact, ih, history, hact, Option.elim_none, List.append_nil]
    | some a =>
      obtain ⟨hen, hok, hnext⟩ := r.step hact
      rw [hnext, hstep _ a (r.reachable n) hen hok, ih, history, hact, Option.elim_some,
        List.append_assoc]

/-- The steps from a moment on meet a condition. -/
def From (r : M.Run ok) (n : ℕ) (late : σ → α → Prop) : Prop :=
  ∀ m a, n ≤ m → r.act m = some a → late (r.state m) a

theorem from_ok (r : M.Run ok) (n : ℕ) : r.From n ok :=
  fun _ _ _ hact => (r.step hact).2.1

theorem From.mono {r : M.Run ok} {n m : ℕ} {late : σ → α → Prop} (h : r.From n late)
    (hm : n ≤ m) : r.From m late :=
  fun m' a hm' => h m' a (Nat.le_trans hm hm')

section Steps

variable {late : σ → α → Prop} {n : ℕ}

/-- What steps leave as it is stays so until the goal. -/
theorem until_of_step (r : M.Run ok) (hlate : r.From n late) {I : σ → Prop} (goal : σ → Prop)
    (hstep : ∀ s a, M.Reachable ok s → I s → ¬goal s → M.Enabled s a → late s a →
      goal (M.next s a) ∨ I (M.next s a))
    (hn : I (r.state n)) (hnever : ∀ m, n ≤ m → ¬goal (r.state m)) {m : ℕ} (hm : n ≤ m) :
    I (r.state m) := by
  induction m, hm using Nat.le_induction with
  | base => exact hn
  | succ m hm ih =>
    cases hact : r.act m with
    | none => exact r.rest hact ▸ ih
    | some a =>
      obtain ⟨hen, -, hnext⟩ := r.step hact
      have hgoal := hnever (m + 1) (Nat.le_succ_of_le hm)
      rw [hnext] at hgoal ⊢
      exact (hstep _ a (r.reachable m) ih (hnever m hm) hen (hlate m a hm hact)).resolve_left hgoal

/-- What holds at a moment and is kept by every step holds from then on. -/
theorem always_of_step (r : M.Run ok) (hlate : r.From n late) {I : σ → Prop}
    (hstep : ∀ s a, M.Reachable ok s → I s → M.Enabled s a → late s a → I (M.next s a))
    (hn : I (r.state n)) {m : ℕ} (hm : n ≤ m) : I (r.state m) :=
  r.until_of_step hlate (fun _ => False)
    (fun s a hr hI _ hen ha => Or.inr (hstep s a hr hI hen ha)) hn (fun _ _ => id) hm

/-- **A rank that the due steps lower** and no step raises leads to the goal, where a step is due in
every state of `I` short of it. -/
theorem eventually_of_rank (r : M.Run ok) (hfair : r.WeaklyFair due) (hlate : r.From n late)
    (I goal : σ → Prop) (rank : σ → ℕ)
    (hdue : ∀ s, M.Reachable ok s → I s → ¬goal s → ∃ a, M.Enabled s a ∧ due s a)
    (hstep : ∀ s a, M.Reachable ok s → I s → ¬goal s → M.Enabled s a → late s a →
      goal (M.next s a) ∨ (I (M.next s a) ∧ rank (M.next s a) ≤ rank s ∧
        (due s a → rank (M.next s a) < rank s)))
    (hn : I (r.state n)) : ∃ m, n ≤ m ∧ goal (r.state m) := by
  induction hrank : rank (r.state n) using Nat.strongRecOn generalizing n with
  | ind k ih =>
    by_contra hno
    have hnever : ∀ m, n ≤ m → ¬goal (r.state m) := fun m hm hgoal => hno ⟨m, hm, hgoal⟩
    have hbelow : ∀ m, n ≤ m → I (r.state m) ∧ rank (r.state m) ≤ k := by
      intro m hm
      refine r.until_of_step hlate (I := fun s => I s ∧ rank s ≤ k) goal ?_ ⟨hn, hrank.le⟩ hnever hm
      rintro s a hr ⟨hI, hle⟩ hgoal hen ha
      exact (hstep s a hr hI hgoal hen ha).imp id fun h => ⟨h.1, h.2.1.trans hle⟩
    -- a due step is taken at last, and brings the run closer to the goal
    obtain ⟨m, a, hm, hact, ha⟩ := hfair n fun m hm =>
      hdue _ (r.reachable m) (hbelow m hm).1 (hnever m hm)
    obtain ⟨hen, -, hnext⟩ := r.step hact
    have hsucc : n ≤ m + 1 := Nat.le_succ_of_le hm
    obtain hgoal | ⟨hI, -, hlt⟩ :=
      hstep _ a (r.reachable m) (hbelow m hm).1 (hnever m hm) hen (hlate m a hm hact)
    · exact hnever (m + 1) hsucc (hnext ▸ hgoal)
    · have hlower : rank (r.state (m + 1)) < k := by
        rw [hnext]
        exact (hlt ha).trans_le (hbelow m hm).2
      obtain ⟨m', hm', hgoal⟩ := ih _ hlower (hlate.mono hsucc) (hnext ▸ hI) rfl
      exact hnever m' (hsucc.trans hm') hgoal

end Steps

/-! ## Runs that come to rest -/

theorem enabled_of_valid {s : σ} {as : List α} (h : M.Valid ok s as) {n : ℕ} {a : α}
    (ha : as[n]? = some a) : M.Enabled (M.exec s (as.take n)) a ∧ ok (M.exec s (as.take n)) a := by
  induction as generalizing s n with
  | nil => simp at ha
  | cons b as ih =>
    obtain ⟨hen, hok, hrest⟩ := h
    cases n with
    | zero =>
      obtain rfl : b = a := by simpa using ha
      exact ⟨hen, hok⟩
    | succ n => exact ih hrest (by simpa using ha)

/-- The run along a list of actions, which rests after that. -/
def ofList {s : σ} {as : List α} (hinit : M.Init s) (h : M.Valid ok s as) : M.Run ok where
  state n := M.exec s (as.take n)
  act n := as[n]?
  init := hinit
  rest {n} hn := by
    have hlen : as.length ≤ n := List.getElem?_eq_none_iff.mp hn
    rw [List.take_of_length_le hlen, List.take_of_length_le (Nat.le_succ_of_le hlen)]
  step {n a} ha := by
    obtain ⟨hen, hok⟩ := enabled_of_valid h ha
    refine ⟨hen, hok, ?_⟩
    have htake : as.take (n + 1) = as.take n ++ [a] := by
      rw [List.take_add_one, ha]
      rfl
    show M.exec s (as.take (n + 1)) = M.next (M.exec s (as.take n)) a
    rw [htake, exec, List.foldl_append]
    rfl

theorem weaklyFair_ofList {s : σ} {as : List α} (hinit : M.Init s) (h : M.Valid ok s as)
    (hrest : ∀ a, M.Enabled (M.exec s as) a → ¬due (M.exec s as) a) :
    (ofList hinit h).WeaklyFair due := by
  intro n hdue
  -- at the end nothing is due
  obtain ⟨a, hen, ha⟩ := hdue (max n as.length) (le_max_left _ _)
  have hlast : (ofList hinit h).state (max n as.length) = M.exec s as := by
    show M.exec s (as.take (max n as.length)) = M.exec s as
    rw [List.take_of_length_le (le_max_right _ _)]
  rw [hlast] at hen ha
  exact absurd ha (hrest a hen)

end Run

end System

end Transition
