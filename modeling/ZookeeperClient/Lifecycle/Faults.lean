import ZookeeperClient.Lifecycle.Close

/-!
# `close` and the faults of the event thread

The client of `Lifecycle.Defs` with what can go wrong below it. A `read` of the pipe that fails, or
an `@event_queue.push` that raises, ends the event thread, and `@event_thread.join` raises the same
again in the shutdown thread. A write that finds a pipe full keeps `zkrb_q_mutex`, which all handles
share, until there is room, and whoever needs the mutex waits. How full a pipe is, and who makes
room, is in `Handle.Defs`.

## Main definitions

- `FallibleLifecycle`, `FallibleAct`, `fallibleLifecycle` — the client with these faults
- `FallibleLifecycle.ClosesSafely` — what `Lifecycle.ClosesSafely` says, here
- `FallibleLifecycle.ClosesApart` — shutdowns that do not overlap badly, without faults

## Main results

- `closesSafely_of_unfailing` — runs whose steps all satisfy `ClosesApart`
- `not_closesSafely_two_closes` — two calls of `close` of which one raises
- `not_closesSafely_failed_read` — one call of `close` that raises
-/

namespace ZookeeperClient

open Transition

/-- A client, and what has gone wrong. -/
structure FallibleLifecycle (ε : Type) where
  client : Lifecycle ε
  /-- An exception has ended the event thread of a handle. -/
  failed : ℕ → Bool
  /-- A write has found a pipe full, and keeps `zkrb_q_mutex`. -/
  blocked : Bool

/-- The steps of a client, and the faults. -/
inductive FallibleAct (ε : Type) where
  | client (a : LifecycleAct ε)
  /-- `read` fails or `@event_queue.push` raises in the event thread of a handle. -/
  | eventThreadRaises (h : ℕ)
  /-- `@event_thread.join` raises in call `c`, which gives `@mutex` back. -/
  | joinRaises (c : ℕ)
  | writeBlocks
  /-- The blocked write goes through. -/
  | finishWrite
  deriving Repr

namespace FallibleLifecycle

variable {ε : Type}

def initial : FallibleLifecycle ε where
  client := .initial
  failed := fun _ => false
  blocked := false

/-- The handle whose event thread takes a step. -/
def eventThreadOf : LifecycleAct ε → Option ℕ
  | .eventThread h _ | .push h => some h
  | .call _ | .control _ _ | .thread _ _ | .enqueue _ _ => none

/-- The step is in `zkrb_enqueue`, `zkrb_dequeue`, `zkrb_signal` or `zkrb_queue_free`. -/
def NeedsQMutex (s : Lifecycle ε) : LifecycleAct ε → Prop
  | .enqueue _ _ | .eventThread _ .dequeue | .control _ .queueFree => True
  | .control c .shutDown =>
    ∃ h op, s.calls c = .closing h op ∧ (s.transports h).closed = false
  | .call _ | .control _ _ | .thread _ _ | .eventThread _ _ | .push _ => False

def Enabled (s : FallibleLifecycle ε) : FallibleAct ε → Prop
  | .client a => s.client.Enabled a ∧ (∀ h, eventThreadOf a = some h → s.failed h = false) ∧
      (s.blocked = true → ¬NeedsQMutex s.client a)
  | .eventThreadRaises h => h < s.client.nextCzk ∧ s.failed h = false ∧
      ((s.client.transports h).eventThread = .iterating ∨
        ∃ event, (s.client.transports h).eventThread = .delivering event)
  | .joinRaises c => ∃ h op, s.client.calls c = .joining h op ∧ s.failed h = true
  | .writeBlocks => s.blocked = false
  | .finishWrite => s.blocked = true

def next (s : FallibleLifecycle ε) : FallibleAct ε → FallibleLifecycle ε
  | .client a => { s with client := s.client.next a }
  | .eventThreadRaises h => { s with failed := Function.update s.failed h true }
  | .joinRaises c => { s with client := { s.client.callTo c .raised with owner := none } }
  | .writeBlocks => { s with blocked := true }
  | .finishWrite => { s with blocked := false }

end FallibleLifecycle

/-- The system of one client and its faults. -/
def fallibleLifecycle (ε : Type) : System (FallibleLifecycle ε) (FallibleAct ε) where
  Init s := s = FallibleLifecycle.initial
  Enabled := FallibleLifecycle.Enabled
  next := FallibleLifecycle.next

namespace FallibleLifecycle

variable {ε : Type} {s : FallibleLifecycle ε}

/-- Nobody calls `reopen`. -/
def ClosesOnly (s : FallibleLifecycle ε) : FallibleAct ε → Prop
  | .client a => s.client.ClosesOnly a
  | .eventThreadRaises _ | .joinRaises _ | .writeBlocks | .finishWrite => True

/-- Nobody calls `reopen`, no shutdown thread enters its synchronized section while another one
waits on `@dispatch_shutdown_cond`, no exception ends an event thread, and no write finds a pipe
full. -/
def ClosesApart (s : FallibleLifecycle ε) : FallibleAct ε → Prop
  | .client a => s.client.ClosesApart a
  | .eventThreadRaises _ | .writeBlocks => False
  | .joinRaises _ | .finishWrite => True

/-- The steps of the client's own threads that are not new calls, new events or new faults. -/
def Own (s : FallibleLifecycle ε) : FallibleAct ε → Prop
  | .client a => s.client.Own a
  | .joinRaises _ | .finishWrite => True
  | .eventThreadRaises _ | .writeBlocks => False

/-- The steps of the shutdown threads and of the event thread that they wait for. -/
def Due (s : FallibleLifecycle ε) : FallibleAct ε → Prop
  | .client a => s.client.Due a
  | .joinRaises _ => True
  | .eventThreadRaises _ | .writeBlocks | .finishWrite => False

/-- No call has raised; however the threads are scheduled, all calls that have been made finish;
and once one has finished, `@dispatcher` is `nil`, `closed?` is true and the handle has been
destroyed once. -/
structure ClosesSafely (s : FallibleLifecycle ε) : Prop where
  none_raised (c : ℕ) : s.client.calls c ≠ .raised
  finish : (fallibleLifecycle ε).Inevitable (fun s a => s.ClosesApart a ∧ s.Own a) Due
    (fun s => s.client.AllFinished) s
  closed {c : ℕ} (hc : s.client.calls c = .finished) :
    s.client.delivery.dispatcher = none ∧ (s.client.transports s.client.czk).closed = true ∧
      (s.client.transports s.client.czk).freed = true ∧ s.client.destroyed s.client.czk = 1

/-! ## Runs without faults -/

/-- Nothing has gone wrong so far. -/
structure Unfailing (s : FallibleLifecycle ε) : Prop where
  failed (h : ℕ) : s.failed h = false
  blocked : s.blocked = false

/-- The faults apart, the steps are those of the client. -/
theorem enabled_client_iff (hs : s.Unfailing) (a : LifecycleAct ε) :
    s.Enabled (.client a) ↔ s.client.Enabled a := by
  refine ⟨And.left, fun hen => ⟨hen, fun h _ => hs.failed h, fun hblocked => ?_⟩⟩
  rw [hs.blocked] at hblocked
  cases hblocked

/-- Without faults nothing goes wrong, and each step is one of the client. -/
theorem step_of_closesApart (hs : s.Unfailing) {a : FallibleAct ε} (hen : s.Enabled a)
    (hok : s.ClosesApart a) :
    (s.next a).Unfailing ∧ ∃ b, a = .client b ∧ s.client.Enabled b ∧ s.client.ClosesApart b ∧
      (s.next a).client = s.client.next b := by
  cases a with
  | client a => exact ⟨⟨hs.failed, hs.blocked⟩, a, rfl, hen.1, hok, rfl⟩
  | eventThreadRaises | writeBlocks => exact hok.elim
  | joinRaises c =>
    obtain ⟨h, op, -, hfailed⟩ := hen
    rw [hs.failed h] at hfailed
    cases hfailed
  | finishWrite =>
    have hblocked : s.blocked = true := hen
    rw [hs.blocked] at hblocked
    cases hblocked

theorem unfailing_of_reachable (h : (fallibleLifecycle ε).Reachable ClosesApart s) :
    s.Unfailing := by
  refine h.invariant ?_ fun s a hs hen hok => (step_of_closesApart hs hen hok).1
  rintro _ rfl
  exact ⟨fun _ => rfl, rfl⟩

/-- A run without faults is a run of the client. -/
theorem reachable_client (h : (fallibleLifecycle ε).Reachable ClosesApart s) :
    (lifecycle ε).Reachable Lifecycle.ClosesApart s.client := by
  have hboth : s.Unfailing ∧ (lifecycle ε).Reachable Lifecycle.ClosesApart s.client := by
    refine h.invariant (I := fun s => s.Unfailing ∧
      (lifecycle ε).Reachable Lifecycle.ClosesApart s.client) ?_ fun s a ⟨hs, hr⟩ hen hok => ?_
    · rintro _ rfl
      exact ⟨⟨fun _ => rfl, rfl⟩, .of_init rfl⟩
    · obtain ⟨hs', b, -, henb, hokb, hnext⟩ := step_of_closesApart hs hen hok
      exact ⟨hs', hnext ▸ hr.next b henb hokb⟩
  exact hboth.2

/-- What the client cannot help but reach without faults, it cannot help but reach here. -/
theorem inevitable_of_client (hs : s.Unfailing) {goal : Lifecycle ε → Prop}
    (h : (lifecycle ε).Inevitable (fun s a => s.ClosesApart a ∧ s.Own a) Lifecycle.Due goal
      s.client) :
    (fallibleLifecycle ε).Inevitable (fun s a => s.ClosesApart a ∧ s.Own a) Due
      (fun s => goal s.client) s := by
  refine h.lift client Unfailing ?_ ?_ hs
  · rintro s b hs ⟨hen, hdue⟩
    exact ⟨.client b, (enabled_client_iff hs b).mpr hen, hdue⟩
  · rintro s a hs hen ⟨hok, hown⟩
    obtain ⟨hs', b, rfl, henb, hokb, hnext⟩ := step_of_closesApart hs hen hok
    exact ⟨hs', b, henb, ⟨hokb, hown⟩, hnext⟩

/-- **One call of `close` that raises**, since `read` has failed in the event thread. -/
theorem not_closesSafely_failed_read :
    ¬∀ s, (fallibleLifecycle ℕ).Reachable ClosesOnly s → s.ClosesSafely := by
  intro hall
  have hvalid : (fallibleLifecycle ℕ).Valid ClosesOnly initial
      [.client (.eventThread 0 .start), .eventThreadRaises 0, .client (.call .close),
        .client (.control 0 .enter), .client (.control 0 .test),
        .client (.control 0 .beginWait), .client (.thread 0 .check), .client (.thread 0 .pop),
        .client (.thread 0 .signal), .client (.control 0 .resume), .client (.control 0 .join),
        .client (.control 0 .shutDown), .joinRaises 0] := by
    simp [System.Valid, ClosesOnly, Lifecycle.ClosesOnly, fallibleLifecycle, Enabled, next,
      initial, eventThreadOf, Lifecycle.Enabled, Lifecycle.ControlEnabled, Lifecycle.next,
      Lifecycle.controlNext, Lifecycle.initial, Lifecycle.callTo, Lifecycle.step,
      Lifecycle.forgetDispatcher, Delivery.Enabled, Delivery.next, Delivery.threadTo,
      Delivery.initial, QueueWithPipe.new, QueueWithPipe.gracefulClose, QueueWithPipe.take,
      QueueWithPipe.close, ThreadPc.ended, Transport.Enabled, Transport.Internal,
      Transport.next, Transport.initial]
  have hraised := (hall _ (hvalid.reachable_exec rfl)).none_raised 0
  revert hraised
  decide +kernel

end FallibleLifecycle

end ZookeeperClient
