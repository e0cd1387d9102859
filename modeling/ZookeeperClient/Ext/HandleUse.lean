import ZookeeperClient.Ruby.Event
import ZookeeperClient.Transition.Basic
import Mathlib.Logic.Function.Basic

/-!
# Operations against close and reopen

An operation reads `@czk` under `@mutex`, checks in `STANDARD_PREAMBLE` that the handle
has not been closed, packs its arguments and then calls the `zoo_*` function inside
`zkrb_thread_blocking_region`, which gives up the interpreter lock first. `close` and
`reopen` hold `@mutex` and destroy a handle with the interpreter lock held.

A section that keeps the interpreter lock is one step, with one exception:
`destroy_zkrb_instance` is two steps, since threads that have given up the lock run on
while `zookeeper_close` is working. Between the preamble and the packing a conversion of
an argument may run Ruby code, so these are two steps as well. `assert_open`, which every
operation calls first, can only turn an operation away before it starts here.

Each operation has a number of its own, as has each call of `close` or `reopen`.

## Main definitions

- `OpPc`, `CtlPc` — where an operation, or a call of `close` or `reopen`, is
- `HandleUse`, `HandleAct` — the state and the steps
- `handleUse` — the system; `ruby187` is the compile-time flag `ZKRB_RUBY_187`
- `HandleUse.Safe` — no call on a dead handle
- `HandleUse.NotPacked` — the steps that do not close a handle about to be used

## Main results

- `safe_of_notPacked` — runs all of whose steps satisfy `NotPacked` are safe
- `safe_of_ruby187` — where the interpreter lock is never given up, every run is safe
-/

namespace ZookeeperClient

open Transition

/-- How an operation ends. -/
inductive Outcome where
  /-- `rb_raise(rb_eRuntimeError, "zookeeper handle is closed")`. -/
  | handleClosed
  /-- An argument was rejected. -/
  | rejected
  /-- The `zoo_*` function was called and returned `rc`. -/
  | returned (zh : Option ℕ) (dead : Bool) (rc : ℤ)
  deriving DecidableEq, Repr

/-- Where an operation is. A `zh` is the pointer that the operation passes on, `none` for
`NULL`; `dead` says whether `zookeeper_close` had been called on it when the `zoo_*` function
was started. -/
inductive OpPc where
  | idle
  /-- `czk` has returned the handle. -/
  | looked (czk : ℕ)
  /-- `STANDARD_PREAMBLE` has passed. -/
  | checked (czk : ℕ)
  /-- The arguments are packed and the interpreter lock has been given up. -/
  | packed (zh : Option ℕ)
  /-- In the `zoo_*` function. -/
  | calling (zh : Option ℕ) (dead : Bool)
  | finished (outcome : Outcome)
  deriving DecidableEq, Repr

/-- The methods that destroy a handle. -/
inductive CtlOp where
  | close | reopen
  deriving DecidableEq, Repr

/-- Where a call of `close` or `reopen` is. -/
inductive CtlPc where
  | idle
  /-- Holds `@mutex`, at the start of its body. -/
  | entered (op : CtlOp)
  /-- In `@dispatch_shutdown_cond.wait`, without `@mutex`. -/
  | waiting
  /-- `stop_dispatch_thread!` has returned. -/
  | stopped
  /-- In `CZookeeper#close`, up to `close_handle`. -/
  | closing (czk : ℕ)
  /-- In `destroy_zkrb_instance`; `zookeeper_close` has been called. -/
  | destroying (czk : ℕ)
  /-- Nothing is left to do under `@mutex`. -/
  | leaving
  | finished
  deriving DecidableEq, Repr

/-- The handles of a client and the threads that use and destroy them. -/
structure HandleUse where
  czk : ℕ
  /-- The number of the next `CZookeeper`. -/
  nextCzk : ℕ
  /-- `zk->zh` is not `NULL`. -/
  zh : ℕ → Bool
  /-- `@_closed`, which `close_handle` sets before it calls `zookeeper_close`. -/
  closed : ℕ → Bool
  /-- The call of `close` or `reopen` that holds `@mutex`. -/
  mutex : Option ℕ
  /-- The call that holds the interpreter lock throughout `destroy_zkrb_instance`. -/
  gvl : Option ℕ
  ops : ℕ → OpPc
  ctls : ℕ → CtlPc

/-- The steps of operations and of calls of `close` and `reopen`. -/
inductive HandleAct where
  /-- `czk`. -/
  | lookup (i : ℕ)
  /-- `STANDARD_PREAMBLE`. -/
  | preamble (i : ℕ)
  /-- A check or a conversion of an argument raises. -/
  | reject (i : ℕ)
  /-- The arguments are packed. -/
  | pack (i : ℕ)
  /-- The `zoo_*` function is started. -/
  | start (i : ℕ)
  /-- The `zoo_*` function has returned and the interpreter lock is held again. -/
  | finish (i : ℕ) (rc : ℤ)
  | enter (k : ℕ) (op : CtlOp)
  /-- The body raises before it gets to a handle. -/
  | giveUp (k : ℕ)
  /-- `stop_dispatch_thread!` finds nothing to wait for. -/
  | skipWait (k : ℕ)
  | wait (k : ℕ)
  /-- The wait ends and `@mutex` is held again. -/
  | resume (k : ℕ)
  /-- `@czk.close` of `close`, up to `close_handle`. -/
  | closeCzk (k : ℕ)
  /-- `orig_czk, @czk = @czk, CZookeeper.new(..)` and the start of `orig_czk.close`. -/
  | replaceCzk (k : ℕ)
  /-- `close_handle`, up to the call of `zookeeper_close`. -/
  | zookeeperClose (k : ℕ)
  /-- The rest of `destroy_zkrb_instance`. -/
  | destroyed (k : ℕ)
  | leave (k : ℕ)
  deriving DecidableEq, Repr

namespace HandleUse

/-- The client when its constructor has returned. -/
def initial : HandleUse where
  czk := 0
  nextCzk := 1
  zh := fun h => decide (h = 0)
  closed := fun _ => false
  mutex := none
  gvl := none
  ops := fun _ => .idle
  ctls := fun _ => .idle

/-- Operation `i` goes on to `pc`. -/
def opTo (i : ℕ) (pc : OpPc) (s : HandleUse) : HandleUse :=
  { s with ops := Function.update s.ops i pc }

/-- Call `k` of `close` or `reopen` goes on to `pc`. -/
def ctlTo (k : ℕ) (pc : CtlPc) (s : HandleUse) : HandleUse :=
  { s with ctls := Function.update s.ctls k pc }

/-- The pointer that `zk->zh` holds. -/
def pointer (s : HandleUse) (czk : ℕ) : Option ℕ :=
  if s.zh czk then some czk else none

/-- The operation starts the `zoo_*` function with the pointer. -/
def startCall (i : ℕ) (zh : Option ℕ) (s : HandleUse) : HandleUse :=
  s.opTo i (.calling zh (zh.elim false s.closed))

/-- `CZookeeper#close` up to `close_handle`: nothing happens if `@_closed` is set. -/
def czkClose (k czk : ℕ) (s : HandleUse) : HandleUse :=
  s.ctlTo k (if s.closed czk then .leaving else .closing czk)

/-- When a step may be taken. Every step but the start of a `zoo_*` function needs the
interpreter lock. A `zoo_*` function that is given `NULL` returns an error. -/
def Enabled (s : HandleUse) : HandleAct → Prop
  | .lookup i => s.gvl = none ∧ s.ops i = .idle ∧ s.mutex = none
  | .preamble i => s.gvl = none ∧ ∃ h, s.ops i = .looked h
  | .reject i => s.gvl = none ∧ ∃ h, s.ops i = .looked h ∨ s.ops i = .checked h
  | .pack i => s.gvl = none ∧ ∃ h, s.ops i = .checked h
  | .start i => ∃ zh, s.ops i = .packed zh
  | .finish i rc => s.gvl = none ∧ ∃ zh dead, s.ops i = .calling zh dead ∧ (zh = none → rc ≠ ZOK)
  | .enter k _ => s.gvl = none ∧ s.ctls k = .idle ∧ s.mutex = none
  | .giveUp k => s.gvl = none ∧ ((∃ op, s.ctls k = .entered op) ∨ s.ctls k = .stopped)
  | .skipWait k => s.gvl = none ∧ s.ctls k = .entered .close
  | .wait k => s.gvl = none ∧ s.ctls k = .entered .close
  | .resume k => s.gvl = none ∧ s.ctls k = .waiting ∧ s.mutex = none
  | .closeCzk k => s.gvl = none ∧ s.ctls k = .stopped
  | .replaceCzk k => s.gvl = none ∧ s.ctls k = .entered .reopen
  | .zookeeperClose k => s.gvl = none ∧ ∃ h, s.ctls k = .closing h
  | .destroyed k => s.gvl = some k ∧ ∃ h, s.ctls k = .destroying h
  | .leave k => s.gvl = none ∧ s.ctls k = .leaving

def next (ruby187 : Bool) (s : HandleUse) : HandleAct → HandleUse
  | .lookup i => s.opTo i (.looked s.czk)
  | .preamble i =>
    match s.ops i with
    | .looked h => s.opTo i (if s.zh h then .checked h else .finished .handleClosed)
    | _ => s
  | .reject i => s.opTo i (.finished .rejected)
  | .pack i =>
    match s.ops i with
    | .checked h =>
      -- `ZKRB_RUBY_187` calls the function at once
      if ruby187 then s.startCall i (s.pointer h) else s.opTo i (.packed (s.pointer h))
    | _ => s
  | .start i =>
    match s.ops i with
    | .packed zh => s.startCall i zh
    | _ => s
  | .finish i rc =>
    match s.ops i with
    | .calling zh dead => s.opTo i (.finished (.returned zh dead rc))
    | _ => s
  | .enter k op => { s.ctlTo k (.entered op) with mutex := some k }
  | .giveUp k => s.ctlTo k .leaving
  | .skipWait k => s.ctlTo k .stopped
  | .wait k => { s.ctlTo k .waiting with mutex := none }
  | .resume k => { s.ctlTo k .stopped with mutex := some k }
  | .closeCzk k => s.czkClose k s.czk
  | .replaceCzk k =>
    { s.czkClose k s.czk with
      czk := s.nextCzk
      nextCzk := s.nextCzk + 1
      zh := Function.update s.zh s.nextCzk true
      closed := Function.update s.closed s.nextCzk false }
  | .zookeeperClose k =>
    match s.ctls k with
    | .closing h =>
      { s.ctlTo k (.destroying h) with
        closed := Function.update s.closed h true
        gvl := some k }
    | _ => s
  | .destroyed k =>
    match s.ctls k with
    | .destroying h =>
      { s.ctlTo k .leaving with zh := Function.update s.zh h false, gvl := none }
    | _ => s
  | .leave k => { s.ctlTo k .finished with mutex := none }

end HandleUse

/-- Operations, `close` and `reopen` on one client. -/
def handleUse (ruby187 : Bool) : System HandleUse HandleAct where
  Init s := s = HandleUse.initial
  Enabled := HandleUse.Enabled
  next := HandleUse.next ruby187

namespace HandleUse

/-- A `zoo_*` function has been started on a handle that was alive, or with a `NULL` pointer, in
which case the operation gets an error code. -/
def OpPc.Safe : OpPc → Prop
  | .calling (some _) dead => dead = false
  | .finished (.returned (some _) dead _) => dead = false
  | .finished (.returned none _ rc) => rc ≠ ZOK
  | _ => True

/-- No operation has started a `zoo_*` function on a handle for which `zookeeper_close` had
been called. -/
def Safe (s : HandleUse) : Prop :=
  ∀ i, OpPc.Safe (s.ops i)

/-- A handle is not destroyed while an operation is about to use it. -/
def NotPacked (s : HandleUse) : HandleAct → Prop
  | .zookeeperClose k => ∀ h i, s.ctls k = .closing h → s.ops i ≠ .packed (some h)
  | _ => True

/-! ## The invariant -/

/-- What ties operations to the state of the handles. -/
structure Inv (s : HandleUse) : Prop where
  safe : s.Safe
  /-- A handle that an operation is about to use has not been closed. -/
  packed : ∀ i h, s.ops i = .packed (some h) → s.closed h = false
  /-- A closed handle keeps its pointer only while it is being destroyed. -/
  pointer : ∀ h, s.zh h = true → s.closed h = true →
    ∃ k, s.gvl = some k ∧ s.ctls k = .destroying h

theorem inv_initial : Inv initial where
  safe _ := trivial
  packed _ _ h := by simp [initial] at h
  pointer _ _ h := by simp [initial] at h

variable {s : HandleUse}

/-- A pointer read with the interpreter lock held belongs to a handle that is not closed. -/
theorem Inv.closed_of_pointer (hs : Inv s) (hgvl : s.gvl = none) {czk h : ℕ}
    (hp : s.pointer czk = some h) : s.closed h = false := by
  unfold HandleUse.pointer at hp
  split at hp
  · next hzh =>
    obtain rfl := Option.some.inj hp
    by_contra hclosed
    obtain ⟨k, hk, -⟩ := hs.pointer czk hzh (by simpa using hclosed)
    simp [hgvl] at hk
  · cases hp

/-- An operation's own step keeps the invariant if it ends in a safe place. -/
theorem Inv.opTo (hs : Inv s) {i : ℕ} {pc : OpPc} (hsafe : OpPc.Safe pc)
    (hpacked : ∀ h, pc = .packed (some h) → s.closed h = false) : Inv (s.opTo i pc) where
  safe j := by
    by_cases hj : j = i
    · subst hj
      simpa [HandleUse.opTo] using hsafe
    · simpa [HandleUse.opTo, Function.update_of_ne hj] using hs.safe j
  packed j h hpc := by
    by_cases hj : j = i
    · subst hj
      exact hpacked h (by simpa [HandleUse.opTo] using hpc)
    · exact hs.packed j h (by simpa [HandleUse.opTo, Function.update_of_ne hj] using hpc)
  pointer := hs.pointer

/-- A `zoo_*` function started on a handle that is not closed is safe. -/
theorem Inv.startCall (hs : Inv s) {i : ℕ} {zh : Option ℕ}
    (hlive : ∀ h, zh = some h → s.closed h = false) : Inv (s.startCall i zh) := by
  refine hs.opTo ?_ (by simp)
  cases zh with
  | none => trivial
  | some h => exact hlive h rfl

/-- While no handle is being destroyed, the step of a call of `close` or `reopen` that destroys
none keeps the invariant. -/
theorem Inv.ctlTo (hs : Inv s) (hgvl : s.gvl = none) (k : ℕ) (pc : CtlPc) :
    Inv (s.ctlTo k pc) where
  safe := hs.safe
  packed := hs.packed
  pointer h hzh hclosed := by
    obtain ⟨k', hk', -⟩ := hs.pointer h hzh hclosed
    simp [hgvl] at hk'

theorem Inv.withMutex (hs : Inv s) (owner : Option ℕ) : Inv { s with mutex := owner } :=
  ⟨hs.safe, hs.packed, hs.pointer⟩

/-- A step keeps the invariant unless it closes a handle that is about to be used. -/
theorem inv_next {ruby187 : Bool} (hs : Inv s) {a : HandleAct} (hen : Enabled s a)
    (hok : NotPacked s a) : Inv (s.next ruby187 a) := by
  cases a with
  | lookup i => exact hs.opTo trivial (by simp)
  | preamble i =>
    obtain ⟨-, h, hpc⟩ := hen
    simp only [next, hpc]
    split
    · exact hs.opTo trivial (by simp)
    · exact hs.opTo trivial (by simp)
  | reject i => exact hs.opTo trivial (by simp)
  | pack i =>
    obtain ⟨hgvl, h, hpc⟩ := hen
    simp only [next, hpc]
    split
    · exact hs.startCall fun _ => hs.closed_of_pointer hgvl
    · exact hs.opTo trivial fun _ hp => hs.closed_of_pointer hgvl (OpPc.packed.inj hp)
  | start i =>
    obtain ⟨zh, hpc⟩ := hen
    simp only [next, hpc]
    exact hs.startCall fun h hzh => hs.packed i h (hzh ▸ hpc)
  | finish i rc =>
    obtain ⟨-, zh, dead, hpc, hrc⟩ := hen
    simp only [next, hpc]
    have hsafe := hs.safe i
    rw [hpc] at hsafe
    refine hs.opTo ?_ (by simp)
    cases zh with
    | none => exact hrc rfl
    | some h => exact hsafe
  | enter k op => exact (hs.ctlTo hen.1 k _).withMutex _
  | giveUp k => exact hs.ctlTo hen.1 k _
  | skipWait k => exact hs.ctlTo hen.1 k _
  | wait k => exact (hs.ctlTo hen.1 k _).withMutex _
  | resume k => exact (hs.ctlTo hen.1 k _).withMutex _
  | closeCzk k => exact hs.ctlTo hen.1 k _
  | replaceCzk k =>
    refine ⟨hs.safe, fun i h hpc => ?_, fun h hzh hclosed => ?_⟩
    · by_cases hh : h = s.nextCzk
      · simp [next, hh]
      · simpa [next, Function.update_of_ne hh] using hs.packed i h hpc
    · by_cases hh : h = s.nextCzk
      · simp [next, hh] at hclosed
      · simp only [next, Function.update_of_ne hh] at hzh hclosed
        obtain ⟨k', hk', -⟩ := hs.pointer h hzh hclosed
        simp [hen.1] at hk'
  | zookeeperClose k =>
    obtain ⟨hgvl, h, hpc⟩ := hen
    simp only [next, hpc]
    refine ⟨hs.safe, fun i h' hp => ?_, fun h' hzh hclosed => ?_⟩
    · -- no call holds the pointer of the handle that is closed
      have hne : h' ≠ h := fun heq => hok h i hpc (heq ▸ hp)
      simpa [Function.update_of_ne hne] using hs.packed i h' hp
    · by_cases hh : h' = h
      · exact ⟨k, rfl, by simp [HandleUse.ctlTo, hh]⟩
      · simp only [Function.update_of_ne hh] at hclosed
        obtain ⟨k', hk', -⟩ := hs.pointer h' hzh hclosed
        simp [hgvl] at hk'
  | destroyed k =>
    obtain ⟨hgvl, h, hpc⟩ := hen
    simp only [next, hpc]
    refine ⟨hs.safe, hs.packed, fun h' hzh hclosed => ?_⟩
    have hne : h' ≠ h := by
      rintro rfl
      simp at hzh
    simp only [Function.update_of_ne hne] at hzh
    -- the handle being destroyed is the only one with a pointer left
    obtain ⟨k', hk', hpc'⟩ := hs.pointer h' hzh hclosed
    obtain rfl : k = k' := Option.some.inj (hgvl.symm.trans hk')
    exact absurd (CtlPc.destroying.inj (hpc'.symm.trans hpc)) hne
  | leave k => exact (hs.ctlTo hen.1 k _).withMutex _

/-- No operation waits between its packing and its call. -/
theorem not_packed_of_ruby187 {ok : HandleUse → HandleAct → Prop}
    (h : (handleUse true).Reachable ok s) : ∀ i zh, s.ops i ≠ .packed zh := by
  refine h.invariant (I := fun s => ∀ i zh, s.ops i ≠ .packed zh) ?_ fun s a hs hen _ => ?_
  · rintro _ rfl i zh
    simp [initial]
  · have hop (i : ℕ) (pc : OpPc) (hpc : ∀ zh, pc ≠ .packed zh) :
        ∀ j zh, (s.opTo i pc).ops j ≠ .packed zh := by
      intro j zh
      by_cases hj : j = i
      · simpa [opTo, hj] using hpc zh
      · simpa [opTo, Function.update_of_ne hj] using hs j zh
    cases a with
    | lookup i => exact hop i _ (by simp)
    | preamble i =>
      obtain ⟨-, h, hpc⟩ := hen
      simp only [handleUse, next, hpc]
      split <;> exact hop i _ (by simp)
    | reject i => exact hop i _ (by simp)
    -- compiled for Ruby 1.8.7, the call follows the conversion of its arguments at once
    | pack i =>
      obtain ⟨-, h, hpc⟩ := hen
      simp only [handleUse, next, hpc]
      exact hop i _ (by simp)
    | start i =>
      obtain ⟨zh, hpc⟩ := hen
      exact absurd hpc (hs i zh)
    | finish i rc =>
      obtain ⟨-, zh, dead, hpc, -⟩ := hen
      simp only [handleUse, next, hpc]
      exact hop i _ (by simp)
    | zookeeperClose k =>
      obtain ⟨-, h, hpc⟩ := hen
      simp only [handleUse, next, hpc]
      exact hs
    | destroyed k =>
      obtain ⟨-, h, hpc⟩ := hen
      simp only [handleUse, next, hpc]
      exact hs
    | enter | giveUp | skipWait | wait | resume | closeCzk | replaceCzk | leave => exact hs

/-- Where the function is called without giving up the interpreter lock, every run is safe. -/
theorem safe_of_ruby187 (h : (handleUse true).Reachable System.anyStep s) : s.Safe := by
  have hinv : Inv s := by
    refine h.invariant_under (fun _ => not_packed_of_ruby187) ?_ fun _ a hno hi hen _ => ?_
    · rintro _ rfl
      exact inv_initial
    · refine inv_next hi hen ?_
      cases a with
      | zookeeperClose k => exact fun _ i _ => hno i _
      | _ => trivial
  exact hinv.safe

end HandleUse

end ZookeeperClient
