import ZookeeperClient.Transition.Basic
import Mathlib.Data.Nat.Notation

/-!
# The event loop of one handle

The C client's threads hand events to the event thread through a linked list and a
pipe. `zkrb_enqueue` appends the event and writes one byte to the pipe, both under
`zkrb_q_mutex`; `zkrb_signal` writes a byte and appends nothing. The event thread runs
`method_get_next_event(true)`: it takes an event if there is one, and only when the
list is empty does it wait for the pipe and read up to 64 bytes from it.

A section that holds `zkrb_q_mutex` is one step as long as it cannot block. A write to a
full pipe does block, with the mutex held; the write is then finished by a later step.
So `qMutex` is set between two steps exactly while a writer is blocked, or has been
blocked and has not yet run again.

`close_handle` is called after the event thread has been joined, so the checks of
`@_closed` in `method_get_next_event` pass in every state of this model.

There is one queue here. `zkrb_q_mutex` is shared by all handles, and `zkrb_signal` waits for it
with the interpreter lock held; the other handles are in `Handle.Defs`, the interpreter lock is in
`Handle.InterpreterLock`.

## Main definitions

- `Pc` — where the event thread is
- `Loop`, `LoopAct` — the state and the steps
- `eventLoop` — the system, over the capacity of the pipe
-/

namespace ZookeeperClient

open Transition

/-- Where the event thread is, from `_event_thread_body` to the end of its loop. -/
inductive Pc (ε : Type) where
  /-- Waiting for `@_running`. -/
  | starting
  /-- About to take `zkrb_q_mutex` in `zkrb_dequeue`. -/
  | dequeue
  /-- `zkrb_dequeue` returned `NULL`; `@_shutting_down` has not been checked yet. -/
  | foundEmpty
  /-- In `rb_thread_wait_fd`. -/
  | parked
  /-- The pipe has become readable; `read` has not been called yet. -/
  | readable
  /-- `get_next_event` returned an event; it has not been pushed yet. -/
  | delivering (event : ε)
  /-- `get_next_event` returned `nil`, or the loop was never entered. -/
  | exited
  deriving DecidableEq, Repr

/-- The thread that holds `zkrb_q_mutex` while its write is blocked. -/
inductive Writer where
  /-- A thread of the C client in `zkrb_enqueue`; its event is already in the list. -/
  | enqueuing
  /-- A thread in `zkrb_signal`. -/
  | signalling
  deriving DecidableEq, Repr

/-- The state of one handle's event loop. -/
structure Loop (ε : Type) where
  queue : List ε
  /-- The bytes in the pipe. -/
  pipe : ℕ
  qMutex : Option Writer
  pc : Pc ε
  running : Bool
  shuttingDown : Bool
  /-- `wake_event_loop!` has been called since `@_shutting_down` became true. -/
  woken : Bool
  deriving DecidableEq, Repr

/-- The steps of the event thread and of the threads around it. -/
inductive LoopAct (ε : Type) where
  /-- `zkc_set_running_and_notify!`. -/
  | setRunning
  /-- The event thread has seen `@_running`. -/
  | start
  | dequeue
  /-- The check of `@_shutting_down`, then the wait. -/
  | checkShutdown
  /-- `rb_thread_wait_fd` returns. -/
  | wake
  | read
  /-- `@event_queue.push(hash)`. -/
  | push
  /-- `zkrb_enqueue`. -/
  | enqueue (event : ε)
  /-- `zkrb_signal`, from `wake_event_loop!`. -/
  | signal
  /-- A blocked write goes through. -/
  | finishWrite
  | shutDown
  deriving DecidableEq, Repr

namespace Loop

variable {ε : Type}

/-- A handle that has just been allocated. -/
def initial : Loop ε where
  queue := []
  pipe := 0
  qMutex := none
  pc := .starting
  running := false
  shuttingDown := false
  woken := false

/-- `write(q->pipe_write, "0", 1)` under `zkrb_q_mutex`, by a writer that blocks when the pipe
is full. -/
def writeByte (cap : ℕ) (w : Writer) (s : Loop ε) : Loop ε :=
  if s.pipe < cap then { s with pipe := s.pipe + 1, qMutex := none }
  else { s with qMutex := some w }

def zkrbEnqueue (cap : ℕ) (event : ε) (s : Loop ε) : Loop ε :=
  { s with queue := s.queue ++ [event] }.writeByte cap .enqueuing

def zkrbSignal (cap : ℕ) (s : Loop ε) : Loop ε :=
  { s with woken := s.woken || s.shuttingDown }.writeByte cap .signalling

/-- `zkrb_dequeue` and what `method_get_next_event` does with its result. -/
def zkrbDequeue (s : Loop ε) : Loop ε :=
  match s.queue with
  | event :: rest => { s with queue := rest, pc := .delivering event }
  | [] => { s with pc := .foundEmpty }

/-- The size of the buffer that the pipe is read into. -/
def bufSize : ℕ := 64

def Enabled (cap : ℕ) (s : Loop ε) : LoopAct ε → Prop
  | .setRunning => True
  | .start => s.pc = .starting ∧ s.running = true
  | .dequeue => s.pc = .dequeue ∧ s.qMutex = none
  | .checkShutdown => s.pc = .foundEmpty
  | .wake => s.pc = .parked ∧ 0 < s.pipe
  | .read => s.pc = .readable ∧ 0 < s.pipe
  | .push => ∃ event, s.pc = .delivering event
  | .enqueue _ => s.qMutex = none
  | .signal => s.qMutex = none
  | .finishWrite => s.qMutex.isSome = true ∧ s.pipe < cap
  | .shutDown => True

def next (cap : ℕ) (s : Loop ε) : LoopAct ε → Loop ε
  | .setRunning => { s with running := true }
  | .start => { s with pc := if s.shuttingDown then .exited else .dequeue }
  | .dequeue => s.zkrbDequeue
  | .checkShutdown => { s with pc := if s.shuttingDown then .exited else .parked }
  | .wake => { s with pc := .readable }
  | .read => { s with pipe := s.pipe - min bufSize s.pipe, pc := .dequeue }
  | .push => { s with pc := .dequeue }
  | .enqueue event => s.zkrbEnqueue cap event
  | .signal => s.zkrbSignal cap
  | .finishWrite => { s with pipe := s.pipe + 1, qMutex := none }
  | .shutDown => { s with shuttingDown := true }

end Loop

/-- The event loop with a pipe of the given capacity. -/
def eventLoop (ε : Type) (cap : ℕ) : System (Loop ε) (LoopAct ε) where
  Init s := s = Loop.initial
  Enabled := Loop.Enabled cap
  next := Loop.next cap

namespace Loop

variable {ε : Type} {cap : ℕ}

/-- The event thread is between finding the list empty and its `read`. -/
def Waiting (s : Loop ε) : Prop :=
  s.pc = .foundEmpty ∨ s.pc = .parked ∨ s.pc = .readable

/-- The event that a blocked `zkrb_enqueue` has appended without a byte for it. -/
def unannounced (s : Loop ε) : ℕ :=
  if s.qMutex = some .enqueuing then 1 else 0

/-- What connects the list, the pipe and the event thread at every point of the loop. -/
structure Inv (cap : ℕ) (s : Loop ε) : Prop where
  /-- The pipe never holds more than its capacity. -/
  pipe_le : s.pipe ≤ cap
  /-- Every event that came after the list was found empty has its byte in the pipe. -/
  announced : s.Waiting → s.queue.length ≤ s.pipe + s.unannounced
  /-- A writer is blocked during the wait only while the pipe is full. -/
  full : s.Waiting → s.qMutex ≠ none → s.pipe = cap
  /-- A wake-up that came after the check of `@_shutting_down` is still in the pipe. -/
  wakeup : s.pc = .parked ∨ s.pc = .readable → s.woken = true → s.qMutex = none → 0 < s.pipe
  /-- A wake-up counts only after the shutdown flag has been set. -/
  flagged : s.woken = true → s.shuttingDown = true

/-- Outside the wait only the bound on the pipe and the shutdown flag matter. -/
theorem Inv.of_not_waiting {s : Loop ε} (hpipe : s.pipe ≤ cap) (hpc : ¬s.Waiting)
    (hflag : s.woken = true → s.shuttingDown = true) : Inv cap s where
  pipe_le := hpipe
  announced h := absurd h hpc
  full h := absurd h hpc
  wakeup h := absurd (Or.inr h) hpc
  flagged := hflag

theorem inv_initial : Inv cap (initial : Loop ε) :=
  .of_not_waiting (Nat.zero_le _) (by simp [Waiting, initial]) (by simp [initial])

/-- A byte written under the mutex keeps the invariant, where the list may have grown by the
event that the byte announces. -/
theorem Inv.writeByte {s : Loop ε} {w : Writer} (hpipe : s.pipe ≤ cap)
    (hqueue : s.Waiting → s.queue.length ≤ s.pipe + if w = .enqueuing then 1 else 0)
    (hflag : s.woken = true → s.shuttingDown = true) : Inv cap (s.writeByte cap w) := by
  unfold Loop.writeByte
  split
  · next hroom =>
    refine ⟨hroom, fun hw => ?_, fun _ h => absurd rfl h, fun _ _ _ => Nat.succ_pos _, hflag⟩
    have hlen := hqueue hw
    simp only [unannounced, reduceCtorEq, if_false]
    split at hlen <;> omega
  · next hfull =>
    refine ⟨hpipe, fun hw => ?_, fun _ _ => ?_, fun _ _ h => by simp at h, hflag⟩
    · simpa [unannounced] using hqueue hw
    · simp only
      omega

/-- Every step of the loop and of the threads around it keeps the invariant. -/
theorem inv_next {s : Loop ε} (h : Inv cap s) (a : LoopAct ε) (hen : Enabled cap s a) :
    Inv cap (s.next cap a) := by
  cases a with
  | setRunning => exact ⟨h.pipe_le, h.announced, h.full, h.wakeup, h.flagged⟩
  | start =>
    refine .of_not_waiting h.pipe_le ?_ h.flagged
    simp only [next, Waiting]
    split <;> simp
  | dequeue =>
    obtain ⟨-, hfree⟩ := hen
    simp only [next, zkrbDequeue]
    cases hq : s.queue with
    | cons event rest => exact .of_not_waiting h.pipe_le (by simp [Waiting]) h.flagged
    | nil =>
      refine ⟨h.pipe_le, fun _ => ?_, fun _ hm => absurd hfree hm, ?_, h.flagged⟩
      · simp
      · simp
  | checkShutdown =>
    have hpc : s.pc = .foundEmpty := hen
    cases hshut : s.shuttingDown with
    | true =>
      refine .of_not_waiting h.pipe_le ?_ h.flagged
      simp [next, Waiting, hshut]
    | false =>
      refine ⟨h.pipe_le, fun _ => h.announced (Or.inl hpc), fun _ => h.full (Or.inl hpc), ?_,
        h.flagged⟩
      -- no wake-up has been sent yet, since the flag is not set
      intro _ hwoken
      exact absurd (h.flagged hwoken) (by simp [hshut])
  | wake =>
    obtain ⟨hpc, hbyte⟩ := hen
    have hw : s.Waiting := Or.inr (Or.inl hpc)
    exact ⟨h.pipe_le, fun _ => h.announced hw, fun _ => h.full hw, fun _ _ _ => hbyte,
      h.flagged⟩
  | read =>
    refine .of_not_waiting (Nat.le_trans (Nat.sub_le _ _) h.pipe_le) ?_ h.flagged
    simp [next, Waiting]
  | push => exact .of_not_waiting h.pipe_le (by simp [next, Waiting]) h.flagged
  | enqueue event =>
    have hfree : s.qMutex = none := hen
    refine Inv.writeByte h.pipe_le (fun hw => ?_) h.flagged
    have hlen := h.announced hw
    simp only [unannounced, hfree, reduceCtorEq, if_false] at hlen
    simp only [List.length_append, List.length_singleton, if_true]
    omega
  | signal =>
    have hfree : s.qMutex = none := hen
    refine Inv.writeByte h.pipe_le (fun hw => ?_) ?_
    · have hlen := h.announced hw
      simpa [unannounced, hfree] using hlen
    · intro hwoken
      obtain hw | hs := Bool.or_eq_true_iff.mp hwoken
      · exact h.flagged hw
      · exact hs
  | finishWrite =>
    obtain ⟨hheld, hroom⟩ := hen
    refine ⟨hroom, fun hw => ?_, fun _ hm => absurd rfl hm, fun _ _ _ => Nat.succ_pos _,
      h.flagged⟩
    -- during the wait the pipe would have to be full for the writer to be blocked
    have hfull := h.full hw (by simpa [Option.isSome_iff_ne_none] using hheld)
    omega
  | shutDown => exact ⟨h.pipe_le, h.announced, h.full, h.wakeup, fun _ => rfl⟩

theorem inv_of_reachable {ok : Loop ε → LoopAct ε → Prop} {s : Loop ε}
    (h : (eventLoop ε cap).Reachable ok s) : Inv cap s := by
  refine h.invariant ?_ fun _ a hi hen _ => inv_next hi a hen
  rintro _ rfl
  exact inv_initial

/-- **No lost wake-up.** While the event thread is parked on an empty pipe, no event is queued
and no wake-up has been sent since the shutdown flag was set. -/
theorem queue_empty_of_parked (hcap : 0 < cap) {s : Loop ε}
    (h : (eventLoop ε cap).Reachable System.anyStep s) (hpc : s.pc = .parked)
    (hpipe : s.pipe = 0) : s.queue = [] ∧ s.woken = false := by
  have hinv := inv_of_reachable h
  have hw : s.Waiting := Or.inr (Or.inl hpc)
  have hfree : s.qMutex = none := by
    by_contra hm
    have := hinv.full hw hm
    omega
  constructor
  · have hlen := hinv.announced hw
    simp only [unannounced, hfree, hpipe, reduceCtorEq, if_false] at hlen
    exact List.length_eq_zero_iff.mp (by omega)
  · by_contra hwoken
    have := hinv.wakeup (Or.inl hpc) (by simpa using hwoken) hfree
    omega

/-- An event comes between the empty list and the wait; its byte is read, it is delivered, and the
event thread is parked again. -/
theorem queue_empty_of_parked_again :
    let s := (eventLoop ℕ 65536).exec Loop.initial
      [.setRunning, .start, .dequeue, .enqueue 7, .checkShutdown, .wake, .read, .dequeue, .push,
        .dequeue, .checkShutdown]
    s.pc = .parked ∧ s.pipe = 0 ∧ s.queue = [] ∧ s.woken = false :=
  ⟨rfl, rfl, @queue_empty_of_parked ℕ 65536 (by decide) _
    (System.Valid.reachable_exec rfl (by simp [System.Valid, System.anyStep, eventLoop,
      Loop.Enabled, Loop.next, Loop.zkrbDequeue, Loop.zkrbEnqueue, Loop.writeByte, bufSize,
      Loop.initial])) rfl rfl⟩

end Loop

end ZookeeperClient
