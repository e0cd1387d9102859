import ZookeeperClient.Ruby.QueueWithPipe
import Mathlib.Logic.Function.Basic

/-!
# Dispatch threads

The threads that `setup_dispatch_thread!` starts, and `@dispatcher`. Such a thread pops from
`@event_queue` and calls `dispatch_next_callback` until a `ShutdownException` ends its loop;
it then takes `@mutex` once more to signal its exit.

Usually there is one such thread. There can be more, since `stop_dispatch_thread!` sets
`@dispatcher` to `nil` after two timeouts even if the thread is still running.

## Main definitions

- `ThreadPc` — where a dispatch thread is
- `Delivery`, `ThreadAct` — the queue with its threads, and their steps
- `Delivery.Looping` — a thread is in its loop
- `Delivery.pending` — what a thread will dispatch if nothing else is pushed
- `Delivery.Serving` — a thread is in its loop and nothing tells it to leave

## Main results

- `dispatched_pending_next` — a thread dispatches what has been pushed, in order and once
- `dispatchesLeft_next` — a thread that serves the queue comes closer to its next call
-/

namespace ZookeeperClient

/-- Where a dispatch thread is. -/
inductive ThreadPc (α : Type) where
  | unborn
  /-- At the start of `pop`, before its check of `closed?`. -/
  | checking
  /-- In `@queue.pop`. -/
  | popping
  /-- `get_next_event` has returned; `dispatch_next_callback` has not been called yet. -/
  | handling (a : α)
  /-- In `dispatch_next_callback`, before the lookup. -/
  | dispatching
  /-- In `dispatch_next_callback`, after the lookup. -/
  | calling
  /-- The loop has ended; in `signal_dispatch_thread_exit!`. -/
  | signalling
  | exited
  deriving DecidableEq, Repr

/-- The thread is past its check of `closed?`, and goes on to take an event or has one. -/
def ThreadPc.busy {α : Type} : ThreadPc α → Bool
  | .popping | .handling _ | .dispatching | .calling => true
  | _ => false

/-- `Thread#join(0)` returns the thread. -/
def ThreadPc.ended {α : Type} : ThreadPc α → Bool
  | .exited => true
  | _ => false

/-- The steps of a dispatch thread. -/
inductive ThreadAct where
  /-- The check of `closed?`. -/
  | check
  | pop
  /-- `dispatch_next_callback` is called. -/
  | pass
  /-- `get_completion` or `get_watcher`, under `@mutex`. -/
  | lookup
  /-- `dispatch_next_callback` returns or raises, and the loop goes on. -/
  | callbackEnds
  /-- A callback raises `ShutdownException`, which ends the loop. -/
  | raisesShutdown
  /-- `@dispatch_shutdown_cond.broadcast`, under `@mutex`. -/
  | signal
  deriving DecidableEq, Repr

/-- `@event_queue`, `@dispatcher` and the dispatch threads. -/
structure Delivery (α : Type) where
  queue : QueueWithPipe α
  dispatcher : Option ℕ
  threads : ℕ → ThreadPc α
  /-- The number of the next thread. -/
  nextThread : ℕ
  /-- History: what has been passed to `dispatch_next_callback`. -/
  dispatched : List α

namespace Delivery

variable {α : Type}

def initial : Delivery α where
  queue := .new
  dispatcher := some 0
  threads := fun d => if d = 0 then .checking else .unborn
  nextThread := 1
  dispatched := []

/-- Thread `d` goes on to `pc`. -/
def threadTo (d : ℕ) (pc : ThreadPc α) (s : Delivery α) : Delivery α :=
  { s with threads := Function.update s.threads d pc }

/-- `Thread.new` in `setup_dispatch_thread!`. -/
def spawn (s : Delivery α) : Delivery α :=
  { s.threadTo s.nextThread .checking with nextThread := s.nextThread + 1 }

def setupDispatchThread (s : Delivery α) : Delivery α :=
  match s.dispatcher with
  | some _ => s
  | none => { s.spawn with dispatcher := some s.nextThread }

/-- When a step of thread `d` may be taken; `free` says that `@mutex` is. -/
def Enabled (free : Prop) (s : Delivery α) (d : ℕ) : ThreadAct → Prop
  | .check => s.threads d = .checking
  | .pop => s.threads d = .popping ∧ s.queue.items ≠ []
  | .pass => ∃ a, s.threads d = .handling a
  | .lookup => s.threads d = .dispatching ∧ free
  | .callbackEnds => s.threads d = .calling
  | .raisesShutdown => s.threads d = .calling
  | .signal => s.threads d = .signalling ∧ free

def next (s : Delivery α) (d : ℕ) : ThreadAct → Delivery α
  | .check => s.threadTo d (if s.queue.closed then .signalling else .popping)
  | .pop =>
    match s.queue.take with
    | none => s
    | some (.ok a, queue) => { s.threadTo d (.handling a) with queue := queue }
    | some (.error _, queue) => { s.threadTo d .signalling with queue := queue }
  | .pass =>
    match s.threads d with
    | .handling a => { s.threadTo d .dispatching with dispatched := s.dispatched ++ [a] }
    | _ => s
  | .lookup => s.threadTo d .calling
  | .callbackEnds => s.threadTo d .checking
  | .raisesShutdown => s.threadTo d .signalling
  | .signal => s.threadTo d .exited

/-- Thread `d` is in its loop. -/
def Looping (s : Delivery α) (d : ℕ) : Prop :=
  s.threads d ≠ .unborn ∧ s.threads d ≠ .signalling ∧ s.threads d ≠ .exited

instance [DecidableEq α] (s : Delivery α) (d : ℕ) : Decidable (s.Looping d) :=
  inferInstanceAs (Decidable (_ ∧ _ ∧ _))

/-- The event in the hands of thread `d`. -/
def hand (s : Delivery α) (d : ℕ) : List α :=
  match s.threads d with
  | .handling a => [a]
  | _ => []

/-- The events on their way to `dispatch_next_callback` through thread `d`. -/
def pending (s : Delivery α) (d : ℕ) : List α :=
  s.hand d ++ s.queue.objs

variable {s : Delivery α} {d d' : ℕ} {free : Prop}

theorem threads_threadTo_of_ne (pc : ThreadPc α) (h : d' ≠ d) :
    (s.threadTo d pc).threads d' = s.threads d' := by
  simp [threadTo, h]

/-- What a step of a dispatch thread does, with the facts that let it be taken. -/
inductive Effect (s : Delivery α) (d : ℕ) : ThreadAct → Delivery α → Prop where
  | closed (hpc : s.threads d = .checking) (hclosed : s.queue.closed = true) :
      Effect s d .check (s.threadTo d .signalling)
  | opened (hpc : s.threads d = .checking) (hopen : s.queue.closed = false) :
      Effect s d .check (s.threadTo d .popping)
  | popped {a rest} (hpc : s.threads d = .popping) (hq : s.queue.items = .obj a :: rest) :
      Effect s d .pop
        { s.threadTo d (.handling a) with queue := { s.queue with items := rest } }
  | killed {rest} (hpc : s.threads d = .popping) (hq : s.queue.items = .killToken :: rest) :
      Effect s d .pop
        { s.threadTo d .signalling with
          queue := { s.queue with items := rest, closed := true } }
  | pass {a} (hpc : s.threads d = .handling a) :
      Effect s d .pass { s.threadTo d .dispatching with dispatched := s.dispatched ++ [a] }
  | lookup (hpc : s.threads d = .dispatching) : Effect s d .lookup (s.threadTo d .calling)
  | callbackEnds (hpc : s.threads d = .calling) :
      Effect s d .callbackEnds (s.threadTo d .checking)
  | raisesShutdown (hpc : s.threads d = .calling) :
      Effect s d .raisesShutdown (s.threadTo d .signalling)
  | signal (hpc : s.threads d = .signalling) : Effect s d .signal (s.threadTo d .exited)

/-- Everything a step of a dispatch thread can do. -/
theorem effect_next {act : ThreadAct} (hen : s.Enabled free d act) :
    Effect s d act (s.next d act) := by
  cases act with
  | check =>
    cases hc : s.queue.closed with
    | true => simpa [next, hc] using Effect.closed hen hc
    | false => simpa [next, hc] using Effect.opened hen hc
  | pop =>
    obtain ⟨hpc, hne⟩ := hen
    cases hq : s.queue.items with
    | nil => exact absurd hq hne
    | cons item rest =>
      cases item with
      | obj a => simpa only [next, QueueWithPipe.take_obj hq] using Effect.popped hpc hq
      | killToken =>
        simpa only [next, QueueWithPipe.take_killToken hq] using Effect.killed hpc hq
  | pass =>
    obtain ⟨a, hpc⟩ := hen
    simpa only [next, hpc] using Effect.pass hpc
  | lookup => exact .lookup hen.1
  | callbackEnds => exact .callbackEnds hen
  | raisesShutdown => exact .raisesShutdown hen
  | signal => exact .signal hen.1

theorem not_enabled_of_unborn {act : ThreadAct} (h : s.threads d = .unborn) :
    ¬s.Enabled free d act := by
  intro hen
  have heff := effect_next hen
  generalize s.next d act = s' at heff
  cases heff <;> simp_all

/-- A step of a thread is its own: the other threads and `@dispatcher` stay as they are. -/
theorem frame_next {act : ThreadAct} (hen : s.Enabled free d act) :
    (s.next d act).dispatcher = s.dispatcher ∧ (s.next d act).nextThread = s.nextThread ∧
      ∀ d', d' ≠ d → (s.next d act).threads d' = s.threads d' := by
  have heff := effect_next hen
  generalize s.next d act = s' at heff ⊢
  cases heff <;> exact ⟨rfl, rfl, fun _ h => threads_threadTo_of_ne _ h⟩

/-- Thread `d` has ended, or has not been started. -/
def Gone (s : Delivery α) (d : ℕ) : Prop :=
  s.threads d = .unborn ∨ s.threads d = .exited

theorem not_enabled_of_gone {act : ThreadAct} (h : s.Gone d) : ¬s.Enabled free d act := by
  obtain hunborn | hexited := h
  · exact not_enabled_of_unborn hunborn
  · intro hen
    have heff := effect_next hen
    generalize s.next d act = s' at heff
    cases heff <;> simp_all

theorem gone_next {act : ThreadAct} (hen : s.Enabled free d act) (h : s.Gone d') :
    (s.next d act).Gone d' := by
  have hne : d' ≠ d := by
    rintro rfl
    exact not_enabled_of_gone h hen
  simpa only [Gone, (frame_next hen).2.2 d' hne] using h

/-- If there is only one thread, it is the one that takes a step. -/
theorem eq_of_unborn {d₀ : ℕ} {act : ThreadAct} (hunborn : ∀ d, d ≠ d₀ → s.threads d = .unborn)
    (hen : s.Enabled free d act) : d = d₀ := by
  by_contra hd
  exact not_enabled_of_unborn (hunborn d hd) hen

theorem unborn_next {d₀ : ℕ} {act : ThreadAct} (hunborn : ∀ d, d ≠ d₀ → s.threads d = .unborn)
    (hen : s.Enabled free d act) {d' : ℕ} (hd' : d' ≠ d₀) :
    (s.next d act).threads d' = .unborn := by
  obtain rfl := eq_of_unborn hunborn hen
  exact ((frame_next hen).2.2 d' hd').trans (hunborn d' hd')

theorem exited_next {act : ThreadAct} (hen : s.Enabled free d act)
    (h : s.threads d' = .exited) : (s.next d act).threads d' = .exited := by
  by_cases hd : d' = d
  · subst hd
    have heff := effect_next hen
    generalize s.next d' act = s' at heff
    cases heff <;> simp_all
  · rw [(frame_next hen).2.2 d' hd]
    exact h

theorem wellFormed_next {act : ThreadAct} (h : s.queue.WellFormed) (hen : s.Enabled free d act) :
    (s.next d act).queue.WellFormed := by
  have heff := effect_next hen
  generalize s.next d act = s' at heff ⊢
  cases heff with
  | popped _ hq => exact h.take (QueueWithPipe.take_obj hq)
  | killed _ hq => exact h.take (QueueWithPipe.take_killToken hq)
  | _ => exact h

theorem looping_of_busy (h : (s.threads d).busy = true) : s.Looping d := by
  unfold Looping
  cases hpc : s.threads d <;> simp [ThreadPc.busy, hpc] at h ⊢

theorem looping_of_next {act : ThreadAct} (hen : s.Enabled free d act)
    (h : (s.next d act).Looping d') : s.Looping d' := by
  by_cases hd : d' = d
  · subst hd
    have heff := effect_next hen
    generalize s.next d' act = s' at heff h
    unfold Looping at h ⊢
    cases heff with
    | closed hpc | opened hpc | popped hpc | killed hpc | pass hpc | lookup hpc
    | callbackEnds hpc | raisesShutdown hpc => simp [hpc]
    | signal => simp [threadTo] at h
  · simpa only [Looping, (frame_next hen).2.2 d' hd] using h

/-- A step closes the queue only by popping the kill token. -/
theorem closed_next {act : ThreadAct} (hen : s.Enabled free d act)
    (h : (s.next d act).queue.closed = true) :
    s.queue.closed = true ∨ s.threads d = .popping ∧ (s.next d act).threads d = .signalling := by
  have heff := effect_next hen
  generalize s.next d act = s' at heff h ⊢
  cases heff with
  | killed hpc => exact Or.inr ⟨hpc, by simp [threadTo]⟩
  | _ => exact Or.inl h

theorem open_of_next {act : ThreadAct} (hen : s.Enabled free d act)
    (h : (s.next d act).queue.closed = false) : s.queue.closed = false := by
  have heff := effect_next hen
  generalize s.next d act = s' at heff h
  cases heff with
  | killed => simp at h
  | _ => exact h

/-- A thread that finds the queue closed does not become busy. -/
theorem busy_next_of_closed {act : ThreadAct} (hen : s.Enabled free d act)
    (hc : s.queue.closed = true) (hb : (s.threads d).busy = false) :
    ((s.next d act).threads d).busy = false := by
  have heff := effect_next hen
  generalize s.next d act = s' at heff ⊢
  cases heff with
  | opened _ hopen => simp [hc] at hopen
  | closed | signal => simp [threadTo, ThreadPc.busy]
  | popped hpc | killed hpc | pass hpc | lookup hpc | callbackEnds hpc | raisesShutdown hpc =>
    simp [hpc, ThreadPc.busy] at hb

theorem busy_of_hand (h : s.hand d ≠ []) : (s.threads d).busy = true := by
  unfold hand at h
  cases hpc : s.threads d <;> simp [hpc, ThreadPc.busy] at h ⊢

/-- A thread that has left its loop can only signal its exit. -/
theorem eq_signal_of_not_looping {act : ThreadAct} (hen : s.Enabled free d act)
    (h : ¬s.Looping d) : act = .signal := by
  have hpc := h
  unfold Looping at hpc
  have heff := effect_next hen
  generalize s.next d act = s' at heff
  cases heff <;> simp_all

theorem graceful_next {act : ThreadAct} (hen : s.Enabled free d act) :
    (s.next d act).queue.graceful = s.queue.graceful := by
  have heff := effect_next hen
  generalize s.next d act = s' at heff ⊢
  cases heff <;> rfl

/-- A thread dispatches events in the order in which they have been pushed, each once. -/
theorem dispatched_pending_next {act : ThreadAct} (hen : s.Enabled free d act) :
    (s.next d act).dispatched ++ (s.next d act).pending d = s.dispatched ++ s.pending d := by
  have heff := effect_next hen
  generalize s.next d act = s' at heff ⊢
  cases heff with
  | popped hpc hq =>
    simp [pending, hand, hpc, QueueWithPipe.objs, QueueWithPipe.objsOf, hq, threadTo]
  | killed hpc hq =>
    simp [pending, hand, hpc, QueueWithPipe.objs, QueueWithPipe.objsOf, hq, threadTo]
  | pass hpc => simp [pending, hand, hpc, threadTo]
  | closed hpc | opened hpc | lookup hpc | callbackEnds hpc | raisesShutdown hpc | signal hpc =>
    simp [pending, hand, hpc, threadTo]

/-! ## A thread that serves the queue -/

/-- `@event_queue.push`. -/
def push (a : α) (s : Delivery α) : Delivery α :=
  { s with queue := s.queue.push a }

/-- Thread `d` is in its loop, and nothing in the queue will end the loop. -/
structure Serving (s : Delivery α) (d : ℕ) : Prop where
  looping : s.Looping d
  queue_open : s.queue.closed = false
  no_killToken : .killToken ∉ s.queue.items

theorem Serving.push (h : s.Serving d) (a : α) : (s.push a).Serving d := by
  refine ⟨h.looping, h.queue_open, fun hk => h.no_killToken ?_⟩
  simpa [Delivery.push, QueueWithPipe.push] using hk

/-- As long as no callback raises `ShutdownException`, a thread that serves the queue goes on
serving it. -/
theorem Serving.next {act : ThreadAct} (h : s.Serving d) (hen : s.Enabled free d act)
    (hact : act ≠ .raisesShutdown) : (s.next d act).Serving d := by
  have hopen := h.queue_open
  have hno := h.no_killToken
  have heff := effect_next hen
  generalize s.next d act = s' at heff ⊢
  cases heff with
  | closed _ hclosed => simp [hclosed] at hopen
  | killed _ hq => simp [hq] at hno
  | raisesShutdown => exact absurd rfl hact
  | signal hpc => exact absurd hpc h.looping.2.1
  | popped _ hq =>
    refine ⟨by simp [Looping, threadTo], hopen, fun hk => hno ?_⟩
    rw [hq]
    exact List.mem_cons_of_mem _ hk
  | opened | pass | lookup | callbackEnds =>
    exact ⟨by simp [Looping, threadTo], hopen, hno⟩

/-- The steps that thread `d` can take if nothing else is pushed, at most. -/
def stepsLeft (s : Delivery α) (d : ℕ) : ℕ :=
  5 * s.queue.items.length +
    match s.threads d with
    | .handling _ => 6
    | .dispatching => 5
    | .calling => 4
    | .checking => 3
    | .popping => 2
    | .signalling => 1
    | .unborn | .exited => 0

theorem stepsLeft_next {act : ThreadAct} (hen : s.Enabled free d act) :
    (s.next d act).stepsLeft d < s.stepsLeft d := by
  have heff := effect_next hen
  generalize s.next d act = s' at heff ⊢
  cases heff with
  | popped hpc hq | killed hpc hq =>
    simp only [stepsLeft, threadTo, hpc, hq, Function.update_self, List.length_cons]
    omega
  | closed hpc | opened hpc | pass hpc | lookup hpc | callbackEnds hpc | raisesShutdown hpc
  | signal hpc => simp [stepsLeft, threadTo, hpc]

theorem stepsLeft_push (s : Delivery α) (a : α) (d : ℕ) :
    (s.push a).stepsLeft d = s.stepsLeft d + 5 := by
  simp only [stepsLeft, push, QueueWithPipe.push, List.length_append, List.length_singleton]
  omega

/-- A thread that serves the queue has a step to take, unless it has nothing to dispatch. -/
theorem exists_enabled_of_serving (h : s.Serving d) (hpend : s.pending d ≠ []) :
    ∃ act, s.Enabled True d act ∧ act ≠ .raisesShutdown := by
  cases hpc : s.threads d with
  | unborn => exact absurd hpc h.looping.1
  | signalling => exact absurd hpc h.looping.2.1
  | exited => exact absurd hpc h.looping.2.2
  | checking => exact ⟨.check, hpc, (by simp)⟩
  | popping =>
    refine ⟨.pop, ⟨hpc, fun hq => hpend ?_⟩, (by simp)⟩
    simp [pending, hand, hpc, QueueWithPipe.objs, QueueWithPipe.objsOf, hq]
  | handling a => exact ⟨.pass, ⟨a, hpc⟩, (by simp)⟩
  | dispatching => exact ⟨.lookup, ⟨hpc, trivial⟩, (by simp)⟩
  | calling => exact ⟨.callbackEnds, hpc, (by simp)⟩

/-- How many steps a dispatch thread is from its next call of `dispatch_next_callback`, if there is
an event for it. -/
def dispatchDistance : ThreadPc α → ℕ
  | .handling _ | .unborn | .signalling | .exited => 0
  | .popping => 1
  | .checking => 2
  | .calling => 3
  | .dispatching => 4

/-- How many steps of the dispatch thread it takes at most until `count` events have been
dispatched. -/
def dispatchesLeft (s : Delivery α) (d count : ℕ) : ℕ :=
  5 * (count - s.dispatched.length) + dispatchDistance (s.threads d)

/-- A step of the dispatch thread brings it closer to its next call. -/
theorem dispatchesLeft_next {count : ℕ} (hs : s.Serving d) (hnot : ¬count ≤ s.dispatched.length)
    {act : ThreadAct} (hen : s.Enabled free d act) (hact : act ≠ .raisesShutdown) :
    (s.next d act).dispatchesLeft d count < s.dispatchesLeft d count := by
  have hleft : s.dispatched.length < count := Nat.lt_of_not_le hnot
  have hopen := hs.queue_open
  have hno := hs.no_killToken
  have heff := effect_next hen
  unfold dispatchesLeft
  generalize s.next d act = t at heff ⊢
  cases heff with
  | closed _ hclosed => simp [hclosed] at hopen
  | killed _ hq => simp [hq] at hno
  | raisesShutdown => exact absurd rfl hact
  | signal hpc => exact absurd hpc hs.looping.2.1
  | pass hpc =>
    simp only [threadTo, Function.update_self, hpc, dispatchDistance, List.length_append,
      List.length_singleton]
    omega
  | opened hpc | popped hpc | lookup hpc | callbackEnds hpc =>
    simp [threadTo, hpc, dispatchDistance]

end Delivery

end ZookeeperClient
