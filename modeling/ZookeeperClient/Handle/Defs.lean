import ZookeeperClient.Ext.EventLoop
import ZookeeperClient.Lifecycle.Defs

/-!
# One handle from its constructor to its end

A `CZookeeper` with its event thread, the C client's threads that report events to it, and
the calls of `CZookeeper#close`. The constructor starts the event thread before it calls
`zkrb_init`, which allocates the queue, calls `zookeeper_init`, stores the handle in `@_data`
and only then sets `@_running`. The calls of `close` come from `close` and `reopen` of the
client, which hold the client's `@mutex`, so there is at most one at a time.

The sections under `@start_stop_mutex` are one step each, up to the wait in
`@running_cond.wait_until`, which gives the mutex up, and up to the last section of `close`,
which is in `close_handle` when it goes on. `zkrb_q_mutex` is global: it may also be held by
a writer on the pipe of another handle. The interpreter lock is in
`Handle.InterpreterLock`.

## Main definitions

- `InitPc`, `EventThreadPc`, `ClosePc` — where the constructor, the event thread and a call of
  `close` are
- `CZookeeper`, `CZookeeperAct` — the state and the steps
- `cZookeeper` — the system, over the capacity of the pipe
-/

namespace ZookeeperClient

open Transition

/-- Where `CZookeeper#initialize` is, after `setup_event_thread!`. -/
inductive InitPc where
  /-- In `zkrb_init`, before `zkrb_queue_alloc`. -/
  | allocating
  /-- Before or in `zookeeper_init`. -/
  | connecting
  /-- `zookeeper_init` has returned a handle. -/
  | connected
  /-- `@_data` has been set. -/
  | ready
  | returned
  /-- `zkrb_init` has raised. -/
  | raised
  deriving DecidableEq, Repr

/-- What can end the event thread besides a `nil` event. -/
inductive EventThreadError where
  /-- `@_data` is `nil`. -/
  | noData
  /-- `zookeeper handle is closed`. -/
  | handleClosed
  | readFailed
  /-- Raised by `@event_queue.push`. -/
  | pushRaised
  deriving DecidableEq, Repr

/-- Where the event thread is. -/
inductive EventThreadPc (ε : Type) where
  /-- Started; it has not taken `@start_stop_mutex` yet. -/
  | started
  /-- Waiting on `@running_cond`. -/
  | waiting
  /-- Woken by the broadcast. -/
  | notified
  /-- About to call `get_next_event`, which checks `@_closed`. -/
  | entering
  /-- Before `FETCH_DATA_PTR`. -/
  | fetching
  /-- At the check of `@_closed` in the loop of `get_next_event`. -/
  | checking
  /-- Before `zkrb_dequeue`. -/
  | dequeuing
  /-- `zkrb_dequeue` returned `NULL`; `@_shutting_down` has not been checked yet. -/
  | foundEmpty
  /-- In `rb_thread_wait_fd`. -/
  | parked
  /-- The pipe has become readable; `read` has not been called yet. -/
  | readable
  /-- `get_next_event` returned an event; it has not been pushed yet. -/
  | delivering (event : ε)
  /-- Ended, by an exception if one is given. -/
  | ended (error : Option EventThreadError)
  deriving DecidableEq, Repr

/-- `@running_cond.broadcast`. -/
def EventThreadPc.broadcast {ε : Type} : EventThreadPc ε → EventThreadPc ε
  | .waiting => .notified
  | pc => pc

/-- Where a call of `CZookeeper#close` is. -/
inductive ClosePc where
  /-- There has been no call. -/
  | idle
  /-- Before `return if closed?`. -/
  | called
  /-- Before `shut_down!`. -/
  | flagging
  /-- In `stop_event_thread!`, before `if @event_thread`. -/
  | testing
  /-- In `wake_event_loop!`, before `zkrb_signal`. -/
  | waking
  /-- The write of `zkrb_signal` is blocked. -/
  | signalling
  /-- In `@event_thread.join`. -/
  | joining
  /-- Before `@event_thread = nil`. -/
  | forgetting
  /-- Before the last section. -/
  | finishing
  /-- In `zookeeper_close`. -/
  | destroying
  /-- Before `zkrb_queue_free`. -/
  | freeing
  | returned
  | raised (error : EventThreadError)
  deriving DecidableEq, Repr

/-- The call has neither returned nor raised. -/
def ClosePc.InProgress : ClosePc → Prop
  | .idle | .returned | .raised _ => False
  | _ => True

/-- Who holds `zkrb_q_mutex` while a write is blocked. -/
inductive QMutexHolder where
  /-- A writer on the pipe of this handle. -/
  | writer (w : Writer)
  /-- A writer on the pipe of another handle. -/
  | elsewhere
  deriving DecidableEq, Repr

/-- The state of a handle. -/
structure CZookeeper (ε : Type) where
  init : InitPc
  thread : EventThreadPc ε
  /-- `@event_thread` is set. -/
  eventThread : Bool
  running : Bool
  shuttingDown : Bool
  closed : Bool
  /-- `@_data` is set. -/
  data : Bool
  /-- The handle and the queue have been freed, and the pointers to them are `NULL`. -/
  freed : Bool
  queue : List ε
  /-- The bytes in the pipe. -/
  pipe : ℕ
  qMutex : Option QMutexHolder
  /-- Which call of the client the last call of `close` belongs to. -/
  op : ControlOp
  call : ClosePc
  /-- History: `wake_event_loop!` has been called. -/
  woken : Bool
  /-- History: how often `close_handle` has gone on to free the handle. -/
  destroyed : ℕ
  deriving DecidableEq, Repr

/-- The steps of the constructor. -/
inductive InitAct where
  /-- `zkrb_queue_alloc` succeeds. -/
  | queueAlloc
  /-- `zookeeper_init` returns a handle. -/
  | zookeeperInit
  /-- `zkrb_queue_alloc` or `zookeeper_init` returns `NULL`. -/
  | initRaises
  /-- `@_data` is set. -/
  | setData
  /-- `zkc_set_running_and_notify!`; the constructor returns. -/
  | setRunningAndNotify
  deriving DecidableEq, Repr

/-- The steps of the event thread. -/
inductive EventThreadAct where
  /-- `@running_cond.wait_until` looks at `@_running`. -/
  | waitUntil
  /-- `get_next_event` is called and checks `@_closed`. -/
  | enter
  | fetchDataPtr
  /-- The check of `@_closed` in the loop. -/
  | checkClosed
  | dequeue
  /-- The check of `@_shutting_down`, then the wait. -/
  | checkShutdown
  /-- `rb_thread_wait_fd` returns. -/
  | wake
  | read
  /-- `read` returns -1. -/
  | readFails
  /-- `@event_queue.push(hash)`. -/
  | push
  /-- `@event_queue.push(hash)` raises. -/
  | pushRaises
  deriving DecidableEq, Repr

/-- The steps of a call of `CZookeeper#close`. -/
inductive CloseAct where
  /-- `return if closed?`. -/
  | testClosed
  | shutDown
  /-- `if @event_thread`, `unless @_closed` and the checks in `wake_event_loop!`. -/
  | testThread
  | signal
  /-- `@event_thread.join`. -/
  | join
  /-- `@event_thread = nil`. -/
  | forget
  /-- `if !@_closed and @_data`, and `close_handle` up to `zookeeper_close`. -/
  | closeHandle
  /-- `zookeeper_close` returns. -/
  | zookeeperClose
  /-- `zkrb_queue_free`; the pointers are set to `NULL`. -/
  | queueFree
  deriving DecidableEq, Repr

/-- The steps of a handle and of the threads around it. -/
inductive CZookeeperAct (ε : Type) where
  | init (act : InitAct)
  | thread (act : EventThreadAct)
  /-- `CZookeeper#close` is called. -/
  | call (op : ControlOp)
  | close (act : CloseAct)
  /-- `zkrb_enqueue`, by a thread of the C client. -/
  | enqueue (event : ε)
  /-- A blocked write goes through. -/
  | finishWrite
  /-- A writer on the pipe of another handle is blocked. -/
  | lockElsewhere
  /-- That writer gives the mutex back. -/
  | unlockElsewhere
  deriving DecidableEq, Repr

namespace CZookeeper

variable {ε : Type}

/-- `CZookeeper#initialize` up to `setup_event_thread!`. -/
def initial : CZookeeper ε where
  init := .allocating
  thread := .started
  eventThread := true
  running := false
  shuttingDown := false
  closed := false
  data := false
  freed := false
  queue := []
  pipe := 0
  qMutex := none
  op := .close
  call := .idle
  woken := false
  destroyed := 0

/-- The threads of the C client run: from the call of `zookeeper_init` to the end of
`zookeeper_close`. -/
def ClientRuns (s : CZookeeper ε) : Prop :=
  s.init ≠ .allocating ∧ s.init ≠ .raised ∧ s.call ≠ .freeing ∧ s.freed = false

/-- `write(q->pipe_write, "0", 1)` under `zkrb_q_mutex`, by a writer that blocks when the pipe
is full. -/
def writeByte (cap : ℕ) (w : Writer) (s : CZookeeper ε) : CZookeeper ε :=
  if s.pipe < cap then { s with pipe := s.pipe + 1, qMutex := none }
  else { s with qMutex := some (.writer w) }

def zkrbEnqueue (cap : ℕ) (event : ε) (s : CZookeeper ε) : CZookeeper ε :=
  { s with queue := s.queue ++ [event] }.writeByte cap .enqueuing

def zkrbSignal (cap : ℕ) (s : CZookeeper ε) : CZookeeper ε :=
  { s with
    woken := true
    call := if s.pipe < cap then .joining else .signalling }.writeByte cap .signalling

def InitEnabled (s : CZookeeper ε) : InitAct → Prop
  | .queueAlloc => s.init = .allocating ∧ s.qMutex = none
  | .zookeeperInit => s.init = .connecting
  | .initRaises => s.init = .allocating ∨ s.init = .connecting
  | .setData => s.init = .connected
  | .setRunningAndNotify => s.init = .ready

def initNext (s : CZookeeper ε) : InitAct → CZookeeper ε
  | .queueAlloc => { s with init := .connecting }
  | .zookeeperInit => { s with init := .connected }
  | .initRaises => { s with init := .raised }
  | .setData => { s with init := .ready, data := true }
  | .setRunningAndNotify =>
    { s with
      init := .returned
      running := true
      thread := s.thread.broadcast }

def ThreadEnabled (s : CZookeeper ε) : EventThreadAct → Prop
  | .waitUntil => s.thread = .started ∨ s.thread = .notified
  | .enter => s.thread = .entering
  | .fetchDataPtr => s.thread = .fetching
  | .checkClosed => s.thread = .checking
  | .dequeue => s.thread = .dequeuing ∧ s.qMutex = none
  | .checkShutdown => s.thread = .foundEmpty
  | .wake => s.thread = .parked ∧ 0 < s.pipe
  | .read => s.thread = .readable ∧ 0 < s.pipe
  | .readFails => s.thread = .readable
  | .push => ∃ event, s.thread = .delivering event
  | .pushRaises => ∃ event, s.thread = .delivering event

/-- The effect of a step of the event thread. A `nil` event ends it without an exception, since
`GotNilEventException` is rescued. -/
def threadNext (s : CZookeeper ε) : EventThreadAct → CZookeeper ε
  | .waitUntil =>
    { s with
      thread :=
        if s.running then (if s.shuttingDown then .ended none else .entering) else .waiting }
  | .enter => { s with thread := if s.closed then .ended none else .fetching }
  | .fetchDataPtr =>
    { s with
      thread :=
        if !s.data then .ended (some .noData)
        else if s.freed then .ended (some .handleClosed)
        else .checking }
  | .checkClosed => { s with thread := if s.closed then .ended none else .dequeuing }
  | .dequeue =>
    match s.queue with
    | event :: rest => { s with queue := rest, thread := .delivering event }
    | [] => { s with thread := .foundEmpty }
  | .checkShutdown => { s with thread := if s.shuttingDown then .ended none else .parked }
  | .wake => { s with thread := .readable }
  | .read => { s with pipe := s.pipe - min Loop.bufSize s.pipe, thread := .checking }
  | .readFails => { s with thread := .ended (some .readFailed) }
  | .push => { s with thread := .entering }
  | .pushRaises => { s with thread := .ended (some .pushRaised) }

def CloseEnabled (s : CZookeeper ε) : CloseAct → Prop
  | .testClosed => s.call = .called
  | .shutDown => s.call = .flagging
  | .testThread => s.call = .testing
  | .signal => s.call = .waking ∧ s.qMutex = none
  | .join => s.call = .joining ∧ ∃ error, s.thread = .ended error
  | .forget => s.call = .forgetting
  | .closeHandle => s.call = .finishing
  -- the threads of the C client are joined
  | .zookeeperClose => s.call = .destroying ∧ s.qMutex ≠ some (.writer .enqueuing)
  | .queueFree => s.call = .freeing ∧ s.qMutex = none

def closeNext (cap : ℕ) (s : CZookeeper ε) : CloseAct → CZookeeper ε
  | .testClosed => { s with call := if s.closed then .returned else .flagging }
  | .shutDown => { s with shuttingDown := true, call := .testing }
  | .testThread =>
    { s with
      call :=
        if !s.eventThread then .finishing
        else if s.closed then .joining
        else if !s.data then .raised .noData
        else if s.freed then .raised .handleClosed
        else .waking }
  | .signal => s.zkrbSignal cap
  | .join =>
    -- `Thread#join` raises what has ended the thread
    { s with
      call :=
        match s.thread with
        | .ended (some error) => .raised error
        | _ => .forgetting }
  | .forget => { s with eventThread := false, call := .finishing }
  | .closeHandle =>
    if s.closed || !s.data then { s with call := .returned }
    else if s.freed then { s with call := .raised .handleClosed }
    else { s with closed := true, destroyed := s.destroyed + 1, call := .destroying }
  | .zookeeperClose => { s with call := .freeing }
  | .queueFree => { s with freed := true, call := .returned }

def Enabled (cap : ℕ) (s : CZookeeper ε) : CZookeeperAct ε → Prop
  | .init act => s.InitEnabled act
  | .thread act => s.ThreadEnabled act
  | .call _ => s.init = .returned ∧ ¬s.call.InProgress
  | .close act => s.CloseEnabled act
  | .enqueue _ => s.ClientRuns ∧ s.qMutex = none
  | .finishWrite => (∃ w, s.qMutex = some (.writer w)) ∧ s.pipe < cap
  | .lockElsewhere => s.qMutex = none
  | .unlockElsewhere => s.qMutex = some .elsewhere

def next (cap : ℕ) (s : CZookeeper ε) : CZookeeperAct ε → CZookeeper ε
  | .init act => s.initNext act
  | .thread act => s.threadNext act
  | .call op => { s with op := op, call := .called }
  | .close act => s.closeNext cap act
  | .enqueue event => s.zkrbEnqueue cap event
  | .finishWrite =>
    { s with
      pipe := s.pipe + 1
      qMutex := none
      call := if s.qMutex = some (.writer .signalling) then .joining else s.call }
  | .lockElsewhere => { s with qMutex := some .elsewhere }
  | .unlockElsewhere => { s with qMutex := none }

end CZookeeper

/-- The system of one handle with a pipe of the given capacity. -/
def cZookeeper (ε : Type) (cap : ℕ) : System (CZookeeper ε) (CZookeeperAct ε) where
  Init s := s = CZookeeper.initial
  Enabled := CZookeeper.Enabled cap
  next := CZookeeper.next cap

end ZookeeperClient
