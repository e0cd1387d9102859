import ZookeeperClient.Ruby.Monitor
import ZookeeperClient.Ruby.QueueWithPipe
import ZookeeperClient.Transition.Basic

/-!
# The first close and the dispatch thread

`stop_dispatch_thread!` step by step: the shutdown thread of the first `close` holds `@mutex`,
enters it once more, puts the kill token into `@event_queue` under the queue's own mutex and
gives up `@mutex` in the wait for the dispatch thread's signal. The dispatch thread takes what
is in the queue, runs callbacks that may take `@mutex` themselves, and signals when it has left
its loop. The two timed waits have no bound here.

## Main definitions

- `DrainPc`, `StopPc` — where the dispatch thread and the shutdown thread are
- `Drain`, `DrainAct` — the state and the steps
- `drain` — the system
- `Drain.Drains` — the shutdown drains the queue and misses no signal

## Main results

- `not_drains_shutdownException` — a callback that raises what ends the loop
- `drains_of_reachable` — without such callbacks the shutdown drains the queue
-/

namespace ZookeeperClient

open Transition

/-- Who takes `@mutex` and the mutex of the queue. -/
inductive Party where
  | closer
  | dispatcher
  /-- Another thread in a method of the client. -/
  | other (i : ℕ)
  deriving DecidableEq, Repr

/-- Where the dispatch thread is. -/
inductive DrainPc (ε : Type) where
  /-- About to call `pop`, which asks `closed?` first. -/
  | looping
  /-- In `closed?`, with the mutex of the queue. -/
  | testing
  /-- In `@queue.pop`. -/
  | popping
  /-- In `dispatch_next_callback(hash)`, where it may own `@mutex`. -/
  | dispatching (hash : ε)
  /-- It has popped the kill token. -/
  | killed
  /-- In `close` of the queue, with the mutex of the queue. -/
  | closing
  /-- `ShutdownException` has been rescued; before `signal_dispatch_thread_exit!`. -/
  | leaving
  /-- In `signal_dispatch_thread_exit!`, before `broadcast`. -/
  | signalling
  /-- After `broadcast`. -/
  | exiting
  /-- After `signal_dispatch_thread_exit!`. -/
  | exited
  | ended
  deriving DecidableEq, Repr

/-- Where the shutdown thread is. -/
inductive StopPc where
  /-- `close` has not been called. -/
  | idle
  /-- Before `@mutex.synchronize` of `close`. -/
  | called
  /-- Before `if @dispatcher`. -/
  | testing
  /-- Before `@mutex.synchronize` of `stop_dispatch_thread!`. -/
  | entering
  /-- In `graceful_close!`, before the mutex of the queue. -/
  | locking
  /-- In `graceful_close!`, with the mutex of the queue. -/
  | putting
  /-- After `graceful_close!`. -/
  | put
  /-- In `@dispatch_shutdown_cond.wait`. -/
  | waiting
  /-- In `@dispatcher.join`. -/
  | joining
  /-- Before the end of `@mutex.synchronize` of `stop_dispatch_thread!`. -/
  | forgotten
  /-- `stop_dispatch_thread!` has returned. -/
  | stopped
  | finished
  deriving DecidableEq, Repr

/-- The state of the two threads and of what they share. -/
structure Drain (ε : Type) where
  /-- `@mutex` with `@dispatch_shutdown_cond`. -/
  mutex : Monitor Party
  /-- `@event_queue`. -/
  queue : QueueWithPipe ε
  /-- Who holds the mutex of `@event_queue`. -/
  queueMutex : Option Party
  /-- `@dispatcher` is set. -/
  dispatcherSet : Bool
  dispatcher : DrainPc ε
  closer : StopPc
  /-- History: what has been pushed before the kill token. -/
  early : List ε
  /-- History: what has been pushed after the kill token. -/
  late : List ε
  /-- History: what has been passed to `dispatch_next_callback`. -/
  dispatched : List ε

/-- The steps of the dispatch thread. -/
inductive DispatchAct where
  /-- The mutex of the queue is taken, in `closed?` or in `close`. -/
  | lockQueue
  | testClosed
  | pop
  /-- A method of the client takes `@mutex`. -/
  | acquire
  /-- A method of the client gives `@mutex` back. -/
  | release
  /-- `dispatch_next_callback` returns or raises. -/
  | finish
  /-- `dispatch_next_callback` raises `ShutdownException`. -/
  | raiseShutdown
  /-- `close` of the queue returns, and `pop` raises. -/
  | markClosed
  /-- `@mutex` is taken in `signal_dispatch_thread_exit!`. -/
  | enterMutex
  | broadcast
  | leaveMutex
  | exit
  deriving DecidableEq, Repr

/-- The steps of the shutdown thread. -/
inductive StopAct where
  /-- `close` is called. -/
  | call
  /-- `@mutex` is taken. -/
  | enter
  /-- `if @dispatcher` and `@dispatcher.join(0)`. -/
  | test
  | reenter
  | lockQueue
  /-- The kill token is put, and the mutex of the queue is given back. -/
  | putToken
  | wait
  | resume
  /-- `@dispatcher.join` returns; `@dispatcher = nil`. -/
  | join
  /-- The inner `@mutex.synchronize` ends. -/
  | leaveInner
  /-- `@czk.close` has returned; the outer `@mutex.synchronize` ends. -/
  | leave
  deriving DecidableEq, Repr

/-- The steps of the threads. -/
inductive DrainAct (ε : Type) where
  /-- `@event_queue.push(hash)`, by an event thread. -/
  | push (hash : ε)
  | dispatch (act : DispatchAct)
  | stop (act : StopAct)
  /-- Another thread takes `@mutex`. -/
  | acquire (i : ℕ)
  /-- Another thread gives `@mutex` back. -/
  | release (i : ℕ)
  deriving DecidableEq, Repr

namespace Drain

variable {ε : Type}

/-- A client that has not been closed, with its dispatch thread. -/
def initial : Drain ε where
  mutex := .new
  queue := .new
  queueMutex := none
  dispatcherSet := true
  dispatcher := .looping
  closer := .idle
  early := []
  late := []
  dispatched := []

def DispatchEnabled (s : Drain ε) : DispatchAct → Prop
  | .lockQueue => (s.dispatcher = .looping ∨ s.dispatcher = .killed) ∧ s.queueMutex = none
  | .testClosed => s.dispatcher = .testing
  | .pop => s.dispatcher = .popping ∧ s.queue.items ≠ []
  | .acquire => (∃ hash, s.dispatcher = .dispatching hash) ∧ s.mutex.CanEnter .dispatcher
  | .release =>
    (∃ hash, s.dispatcher = .dispatching hash) ∧ s.mutex.owner = some .dispatcher
  | .finish | .raiseShutdown =>
    -- `synchronize` gives the mutex back however its block ends
    (∃ hash, s.dispatcher = .dispatching hash) ∧ s.mutex.owner ≠ some .dispatcher
  | .markClosed => s.dispatcher = .closing
  | .enterMutex => s.dispatcher = .leaving ∧ s.mutex.CanEnter .dispatcher
  | .broadcast => s.dispatcher = .signalling
  | .leaveMutex => s.dispatcher = .exiting
  | .exit => s.dispatcher = .exited

def dispatchNext (s : Drain ε) : DispatchAct → Drain ε
  | .lockQueue =>
    match s.dispatcher with
    | .killed => { s with dispatcher := .closing, queueMutex := some .dispatcher }
    | _ => { s with dispatcher := .testing, queueMutex := some .dispatcher }
  | .testClosed =>
    { s with
      dispatcher := if s.queue.closed then .leaving else .popping
      queueMutex := none }
  | .pop =>
    match s.queue.items with
    | .obj hash :: rest =>
      { s with
        queue := { s.queue with items := rest }
        dispatcher := .dispatching hash
        dispatched := s.dispatched ++ [hash] }
    | .killToken :: rest =>
      { s with queue := { s.queue with items := rest }, dispatcher := .killed }
    | [] => s
  | .acquire => { s with mutex := s.mutex.enter .dispatcher }
  | .release => { s with mutex := s.mutex.exit }
  | .finish => { s with dispatcher := .looping }
  | .raiseShutdown => { s with dispatcher := .leaving }
  | .markClosed =>
    { s with queue := s.queue.close, dispatcher := .leaving, queueMutex := none }
  | .enterMutex => { s with mutex := s.mutex.enter .dispatcher, dispatcher := .signalling }
  | .broadcast => { s with mutex := s.mutex.broadcast, dispatcher := .exiting }
  | .leaveMutex => { s with mutex := s.mutex.exit, dispatcher := .exited }
  | .exit => { s with dispatcher := .ended }

def StopEnabled (s : Drain ε) : StopAct → Prop
  | .call => s.closer = .idle
  | .enter => s.closer = .called ∧ s.mutex.CanEnter .closer
  | .test => s.closer = .testing
  | .reenter => s.closer = .entering ∧ s.mutex.CanEnter .closer
  | .lockQueue => s.closer = .locking ∧ s.queueMutex = none
  | .putToken => s.closer = .putting
  | .wait => s.closer = .put
  | .resume =>
    s.closer = .waiting ∧ (s.mutex.signalled .closer).isSome = true ∧ s.mutex.owner = none
  | .join => s.closer = .joining ∧ s.dispatcher = .ended
  | .leaveInner => s.closer = .forgotten
  | .leave => s.closer = .stopped

def stopNext (s : Drain ε) : StopAct → Drain ε
  | .call => { s with closer := .called }
  | .enter => { s with mutex := s.mutex.enter .closer, closer := .testing }
  | .test =>
    if s.dispatcherSet then
      match s.dispatcher with
      | .ended => { s with dispatcherSet := false, closer := .stopped }
      | _ => { s with closer := .entering }
    else { s with closer := .stopped }
  | .reenter => { s with mutex := s.mutex.enter .closer, closer := .locking }
  | .lockQueue => { s with queueMutex := some .closer, closer := .putting }
  | .putToken =>
    { s with queue := s.queue.gracefulClose, queueMutex := none, closer := .put }
  | .wait => { s with mutex := s.mutex.wait .closer, closer := .waiting }
  | .resume => { s with mutex := s.mutex.resume .closer, closer := .joining }
  | .join => { s with dispatcherSet := false, closer := .forgotten }
  | .leaveInner => { s with mutex := s.mutex.exit, closer := .stopped }
  | .leave => { s with mutex := s.mutex.exit, closer := .finished }

def Enabled (s : Drain ε) : DrainAct ε → Prop
  | .push _ => True
  | .dispatch act => s.DispatchEnabled act
  | .stop act => s.StopEnabled act
  | .acquire i => s.mutex.CanEnter (.other i)
  | .release i => s.mutex.owner = some (.other i)

def next (s : Drain ε) : DrainAct ε → Drain ε
  | .push hash =>
    if s.queue.graceful then
      { s with queue := s.queue.push hash, late := s.late ++ [hash] }
    else { s with queue := s.queue.push hash, early := s.early ++ [hash] }
  | .dispatch act => s.dispatchNext act
  | .stop act => s.stopNext act
  | .acquire i => { s with mutex := s.mutex.enter (.other i) }
  | .release _ => { s with mutex := s.mutex.exit }

end Drain

/-- The system of the shutdown thread and the dispatch thread. -/
def drain (ε : Type) : System (Drain ε) (DrainAct ε) where
  Init s := s = Drain.initial
  Enabled := Drain.Enabled
  next := Drain.next

namespace Drain

variable {ε : Type} {s : Drain ε}

/-- The dispatch thread has popped the kill token, or has left its loop without. -/
def Left (s : Drain ε) : Prop :=
  match s.dispatcher with
  | .killed | .closing | .leaving | .signalling | .exiting | .exited | .ended => True
  | _ => False

/-- The shutdown thread waits for the dispatch thread: for a mutex that it holds, for its signal
or for its end. -/
def CloserWaits (s : Drain ε) : Prop :=
  match s.closer with
  | .called => s.mutex.owner = some .dispatcher
  | .locking => s.queueMutex = some .dispatcher
  | .waiting => (s.mutex.waiting .closer).isSome = true ∨ s.mutex.owner = some .dispatcher
  | .joining => s.dispatcher ≠ .ended
  | _ => False

/-- The dispatch thread waits for the shutdown thread: for a mutex that it holds, or, at an empty
queue, for the kill token. A callback may want `@mutex` at any time. -/
def DispatcherWaits (s : Drain ε) : Prop :=
  match s.dispatcher with
  | .looping | .killed => s.queueMutex = some .closer
  | .popping => s.queue.items = []
  | .dispatching _ | .leaving => s.mutex.owner = some .closer
  | _ => False

/-- The shutdown drains the queue and misses no signal. -/
structure Drains (s : Drain ε) : Prop where
  /-- What has been pushed before the kill token is dispatched before the loop is left. -/
  early : s.Left → s.dispatched = s.early
  /-- What has been pushed after it is not dispatched. -/
  late : s.dispatched <+: s.early
  /-- The signal is given while the shutdown thread waits for it. -/
  heard : s.DispatchEnabled .broadcast →
    s.closer = .waiting ∧ (s.mutex.waiting .closer).isSome = true
  /-- The two threads do not wait for each other. -/
  alive : ¬(s.CloserWaits ∧ s.DispatcherWaits)

/-- No callback raises `ShutdownException`, by which the loop is left. -/
def NoShutdownException (_ : Drain ε) : DrainAct ε → Prop
  | .dispatch .raiseShutdown => False
  | _ => True

end Drain

/-- How often the shutdown thread has entered `@mutex` once more, if it owns it. -/
def StopPc.count : StopPc → Option ℕ
  | .testing | .entering | .stopped => some 0
  | .locking | .putting | .put | .joining | .forgotten => some 1
  | .idle | .called | .waiting | .finished => none

/-- The kill token has been put. -/
def StopPc.token : StopPc → Bool
  | .put | .waiting | .joining | .forgotten | .stopped | .finished => true
  | .idle | .called | .testing | .entering | .locking | .putting => false

/-- The shutdown thread has come back from its wait. -/
def StopPc.heard : StopPc → Bool
  | .joining | .forgotten | .stopped | .finished => true
  | _ => false

namespace Drain

variable {ε : Type} {s s' : Drain ε}

/-- The dispatch thread has given its signal. -/
def Signalled (s : Drain ε) : Prop :=
  s.dispatcher = .exiting ∨ s.dispatcher = .exited ∨ s.dispatcher = .ended

/-- What the shutdown thread holds and has done at each point. -/
structure CloserOk (s : Drain ε) : Prop where
  held : ∀ n, s.mutex.held = some (.closer, n) ↔ s.closer.count = some n
  token : s.queue.graceful = s.closer.token
  away : s.closer ≠ .waiting →
    s.mutex.waiting .closer = none ∧ s.mutex.signalled .closer = none
  waits : s.closer = .waiting → ¬s.Signalled →
    s.mutex.waiting .closer = some 1 ∧ s.mutex.signalled .closer = none
  woken : s.closer = .waiting → s.Signalled →
    s.mutex.waiting .closer = none ∧ s.mutex.signalled .closer = some 1
  heard : s.closer.heard = true → s.Signalled
  put : s.closer = .put → ¬s.Signalled
  set : s.closer.heard = false → s.dispatcherSet = true

theorem closerOk_initial : (initial : Drain ε).CloserOk where
  held n := by simp [initial, Monitor.new, StopPc.count]
  token := rfl
  away _ := ⟨rfl, rfl⟩
  waits h := by cases h
  woken h := by cases h
  heard h := by cases h
  put h := by cases h
  set _ := rfl

/-- A step to a place where the thread owns `@mutex` as often as before. -/
theorem CloserOk.held_of_count (hs : s.CloserOk) {pc : StopPc} (hcount : pc.count = s.closer.count)
    (n : ℕ) : s.mutex.held = some (.closer, n) ↔ pc.count = some n := by
  rw [hcount]
  exact hs.held n

/-- A step of another thread that neither signals nor puts the kill token. -/
theorem CloserOk.congr (hs : s.CloserOk) (hcloser : s'.closer = s.closer)
    (hheld : ∀ n, s'.mutex.held = some (.closer, n) ↔ s.mutex.held = some (.closer, n))
    (hwaiting : s'.mutex.waiting = s.mutex.waiting)
    (hsignalled : s'.mutex.signalled = s.mutex.signalled)
    (hgraceful : s'.queue.graceful = s.queue.graceful)
    (hsig : s'.Signalled ↔ s.Signalled) (hset : s'.dispatcherSet = s.dispatcherSet) :
    s'.CloserOk := by
  refine ⟨?_, ?_, ?_, ?_, ?_, ?_, ?_, ?_⟩
  · intro n
    rw [hheld, hcloser]
    exact hs.held n
  · rw [hgraceful, hcloser]
    exact hs.token
  · rw [hcloser, hwaiting, hsignalled]
    exact hs.away
  · rw [hcloser, hsig, hwaiting, hsignalled]
    exact hs.waits
  · rw [hcloser, hsig, hwaiting, hsignalled]
    exact hs.woken
  · rw [hcloser, hsig]
    exact hs.heard
  · rw [hcloser, hsig]
    exact hs.put
  · rw [hcloser, hset]
    exact hs.set

/-- A step of the shutdown thread that does not begin or end its wait. -/
theorem CloserOk.of_step (hs : s.CloserOk) (hpc : s.closer ≠ .waiting)
    (hpc' : s'.closer ≠ .waiting)
    (hheld : ∀ n, s'.mutex.held = some (.closer, n) ↔ s'.closer.count = some n)
    (hwaiting : s'.mutex.waiting = s.mutex.waiting)
    (hsignalled : s'.mutex.signalled = s.mutex.signalled)
    (hgraceful : s'.queue.graceful = s'.closer.token)
    (hheard : s'.closer.heard = true → s'.Signalled) (hput : s'.closer = .put → ¬s'.Signalled)
    (hset : s'.closer.heard = false → s'.dispatcherSet = true) : s'.CloserOk := by
  refine ⟨hheld, hgraceful, fun _ => ?_, fun h => absurd h hpc', fun h => absurd h hpc', hheard,
    hput, hset⟩
  rw [hwaiting, hsignalled]
  exact hs.away hpc

/-! ## The dispatch thread -/

/-- What the dispatch thread holds at each point. -/
structure DispatcherOk (s : Drain ε) : Prop where
  owns : ∀ n, s.mutex.held = some (.dispatcher, n) →
    (∃ hash, s.dispatcher = .dispatching hash) ∨ s.dispatcher = .signalling ∨
      s.dispatcher = .exiting
  signals : s.dispatcher = .signalling ∨ s.dispatcher = .exiting →
    s.mutex.held = some (.dispatcher, 0)
  locks : s.queueMutex = some .dispatcher →
    s.dispatcher = .testing ∨ s.dispatcher = .closing

theorem dispatcherOk_initial : (initial : Drain ε).DispatcherOk where
  owns n h := by cases h
  signals h := by rcases h with h | h <;> cases h
  locks h := by cases h

theorem DispatcherOk.not_locked (hs : s.DispatcherOk)
    (hpc : s.dispatcher ≠ .testing ∧ s.dispatcher ≠ .closing) :
    s.queueMutex ≠ some .dispatcher := by
  intro hlocked
  obtain h | h := hs.locks hlocked
  · exact hpc.1 h
  · exact hpc.2 h

theorem DispatcherOk.congr (hs : s.DispatcherOk) (hdispatcher : s'.dispatcher = s.dispatcher)
    (hheld : ∀ n, s'.mutex.held = some (.dispatcher, n) ↔ s.mutex.held = some (.dispatcher, n))
    (hqueue : s'.queueMutex = some .dispatcher → s.queueMutex = some .dispatcher) :
    s'.DispatcherOk := by
  refine ⟨?_, ?_, ?_⟩
  · intro n hn
    rw [hdispatcher]
    exact hs.owns n ((hheld n).mp hn)
  · rw [hdispatcher, hheld]
    exact hs.signals
  · intro hlocked
    rw [hdispatcher]
    exact hs.locks (hqueue hlocked)

/-- Outside of callbacks and of its signal the dispatch thread does not own `@mutex`. -/
theorem DispatcherOk.not_owner (hs : s.DispatcherOk)
    (hpc : ∀ hash, s.dispatcher ≠ .dispatching hash)
    (hpc' : s.dispatcher ≠ .signalling ∧ s.dispatcher ≠ .exiting) :
    s.mutex.owner ≠ some .dispatcher := by
  intro howner
  obtain ⟨⟨t, n⟩, hheld, rfl⟩ := Option.map_eq_some_iff.mp howner
  obtain ⟨hash, hd⟩ | hd | hd := hs.owns n hheld
  · exact hpc hash hd
  · exact hpc'.1 hd
  · exact hpc'.2 hd

/-- A step of the dispatch thread while it does not own `@mutex`. -/
theorem DispatcherOk.of_not_owner (hmutex : s'.mutex = s.mutex)
    (howner : s.mutex.owner ≠ some .dispatcher)
    (hpc : s'.dispatcher ≠ .signalling ∧ s'.dispatcher ≠ .exiting)
    (hlocks : s'.queueMutex = some .dispatcher →
      s'.dispatcher = .testing ∨ s'.dispatcher = .closing) : s'.DispatcherOk := by
  refine ⟨fun n hheld => ?_, fun h => ?_, hlocks⟩
  · rw [hmutex] at hheld
    exact absurd (Monitor.owner_of_held hheld) howner
  · obtain h | h := h
    · exact absurd h hpc.1
    · exact absurd h hpc.2

/-! ## The queue -/

/-- What is in the queue at each point. -/
structure QueueOk (s : Drain ε) : Prop where
  left : s.Left → s.queue.graceful = true ∧ s.dispatched = s.early
  pending : ¬s.Left → s.queue.closed = false ∧ ∃ rest, s.dispatched ++ rest = s.early ∧
    s.queue.items = rest.map .obj ++
      if s.queue.graceful then .killToken :: s.late.map .obj else []
  late : s.queue.graceful = false → s.late = []
  locks : s.queueMutex = some .closer → s.closer = .putting

theorem queueOk_initial : (initial : Drain ε).QueueOk where
  left h := h.elim
  pending _ := ⟨rfl, [], rfl, rfl⟩
  late _ := rfl
  locks h := by cases h

theorem QueueOk.not_locked (hs : s.QueueOk) (hpc : s.closer ≠ .putting) :
    s.queueMutex ≠ some .closer :=
  fun hlocked => hpc (hs.locks hlocked)

/-- A step that leaves the queue alone and does not lead out of the loop. -/
theorem QueueOk.congr (hs : s.QueueOk) (hleft : s'.Left ↔ s.Left) (hqueue : s'.queue = s.queue)
    (hearly : s'.early = s.early) (hlate : s'.late = s.late)
    (hdispatched : s'.dispatched = s.dispatched)
    (hlocks : s'.queueMutex = some .closer → s'.closer = .putting) : s'.QueueOk := by
  refine ⟨?_, ?_, ?_, hlocks⟩
  · rw [hleft, hqueue, hdispatched, hearly]
    exact hs.left
  · rw [hleft, hqueue, hdispatched, hearly, hlate]
    exact hs.pending
  · rw [hqueue, hlate]
    exact hs.late

theorem left_of_signalled (hs : s.Signalled) : s.Left := by
  obtain h | h | h := hs <;> simp [Left, h]

/-- Before the kill token has been put, the dispatch thread is in its loop. -/
theorem not_left (hcloser : s.CloserOk) (hqueue : s.QueueOk) (htoken : s.closer.token = false) :
    ¬s.Left := by
  intro hleft
  have hgraceful := (hqueue.left hleft).1
  rw [hcloser.token, htoken] at hgraceful
  cases hgraceful

/-! ## One step -/

structure Ok (s : Drain ε) : Prop where
  closer : s.CloserOk
  dispatcher : s.DispatcherOk
  queue : s.QueueOk

/-- A step of the shutdown thread that leaves the queue and `@dispatcher` alone. -/
theorem Ok.of_stop (hs : s.Ok) (pc : StopPc) (mutex : Monitor Party)
    (hpc : s.closer ≠ .waiting ∧ pc ≠ .waiting) (hlocks : s.closer ≠ .putting)
    (hheld : ∀ n, mutex.held = some (.closer, n) ↔ pc.count = some n)
    (hheld' : ∀ n, mutex.held = some (.dispatcher, n) ↔
      s.mutex.held = some (.dispatcher, n))
    (hwaiting : mutex.waiting = s.mutex.waiting)
    (hsignalled : mutex.signalled = s.mutex.signalled)
    (htoken : pc.token = s.closer.token) (hheard : pc.heard = s.closer.heard)
    (hput : pc ≠ .put) : Ok { s with mutex := mutex, closer := pc } := by
  refine ⟨?_, ?_, ?_⟩
  · refine hs.closer.of_step hpc.1 hpc.2 hheld hwaiting hsignalled ?_ ?_ (fun h => absurd h hput) ?_
    · show s.queue.graceful = pc.token
      rw [htoken]
      exact hs.closer.token
    · show pc.heard = true → s.Signalled
      rw [hheard]
      exact hs.closer.heard
    · show pc.heard = false → _
      rw [hheard]
      exact hs.closer.set
  · exact hs.dispatcher.congr rfl hheld' id
  · exact hs.queue.congr Iff.rfl rfl rfl rfl rfl fun h => absurd (hs.queue.locks h) hlocks

/-- The kill token goes behind everything that has been pushed. -/
theorem Ok.putToken (hs : s.Ok) (hpc : s.closer = .putting) : (s.stopNext .putToken).Ok := by
  have hnot := not_left hs.closer hs.queue (by rw [hpc]; rfl)
  have hgraceful : s.queue.graceful = false := by rw [hs.closer.token, hpc]; rfl
  obtain ⟨hclosed, rest, hearly, hitems⟩ := hs.queue.pending hnot
  have hput : s.queue.gracefulClose =
      { s.queue with items := s.queue.items ++ [.killToken], graceful := true } := by
    simp [QueueWithPipe.gracefulClose, hgraceful, hclosed]
  have hheld (n : ℕ) : s.mutex.held = some (.closer, n) ↔ StopPc.put.count = some n :=
    hs.closer.held_of_count (by rw [hpc]; rfl) n
  refine ⟨?_, hs.dispatcher.congr rfl (fun _ => Iff.rfl) (fun h => by cases h), ?_⟩
  · refine hs.closer.of_step (by simp [hpc]) (by simp [stopNext]) hheld rfl rfl ?_
      (fun h => by cases h) (fun _ hsig => hnot (left_of_signalled hsig))
      fun _ => hs.closer.set (by rw [hpc]; rfl)
    simp only [stopNext, hput]
    rfl
  · refine ⟨fun h => absurd h hnot, fun _ => ?_, fun h => ?_, fun h => by cases h⟩
    · refine ⟨by simpa [stopNext, hput] using hclosed, rest, hearly, ?_⟩
      simp [stopNext, hput, hitems, hgraceful, hs.queue.late hgraceful]
    · simp [stopNext, hput] at h

/-- The wait gives `@mutex` up, however often it has been entered, and the signal is still to
come. -/
theorem Ok.wait (hs : s.Ok) (hpc : s.closer = .put) : (s.stopNext .wait).Ok := by
  have hheld : s.mutex.held = some (.closer, 1) := (hs.closer.held 1).mpr (by rw [hpc]; rfl)
  have hsignalled : s.mutex.signalled .closer = none :=
    (hs.closer.away (by simp [hpc])).2
  have hsig := hs.closer.put hpc
  refine ⟨⟨?_, ?_, fun h => absurd rfl h, fun _ _ => ⟨?_, hsignalled⟩,
    fun _ h => absurd h hsig, fun h => (by cases h), fun h => (by cases h),
    fun _ => hs.closer.set (by rw [hpc]; rfl)⟩, hs.dispatcher.congr rfl ?_ id, ?_⟩
  · intro n
    simp [stopNext, Monitor.wait, StopPc.count]
  · exact hs.closer.token.trans (by rw [hpc]; rfl)
  · simp [stopNext, Monitor.wait, hheld]
  · intro n
    simp [stopNext, Monitor.wait, hheld]
  · exact hs.queue.congr Iff.rfl rfl rfl rfl rfl fun h =>
      absurd h (hs.queue.not_locked (by simp [hpc]))

/-- The shutdown thread comes back from its wait only when the signal has been given. -/
theorem Ok.resume (hs : s.Ok) (hen : s.StopEnabled .resume) : (s.stopNext .resume).Ok := by
  obtain ⟨hpc, hwoken, hfree⟩ := hen
  have hsig : s.Signalled := by
    by_contra hsig
    simp [(hs.closer.waits hpc hsig).2] at hwoken
  obtain ⟨hwaiting, hsignalled⟩ := hs.closer.woken hpc hsig
  have hheld := Monitor.held_of_owner_none hfree
  refine ⟨⟨?_, ?_, fun _ => ⟨hwaiting, ?_⟩, fun h => (by cases h), fun h => (by cases h),
    fun _ => hsig, fun h => (by cases h), fun h => (by cases h)⟩,
    hs.dispatcher.congr rfl ?_ id, ?_⟩
  · intro n
    simp [stopNext, Monitor.resume, hsignalled, StopPc.count]
  · exact hs.closer.token.trans (by rw [hpc]; rfl)
  · simp [stopNext, Monitor.resume]
  · intro n
    simp [stopNext, Monitor.resume, hsignalled, hheld]
  · exact hs.queue.congr Iff.rfl rfl rfl rfl rfl fun h =>
      absurd h (hs.queue.not_locked (by simp [hpc]))

theorem ok_stopNext (hs : s.Ok) {act : StopAct} (hen : s.StopEnabled act) :
    (s.stopNext act).Ok := by
  cases act with
  | call =>
    have hpc : s.closer = .idle := hen
    exact hs.of_stop .called s.mutex (by simp [hpc]) (by simp [hpc])
      (hs.closer.held_of_count (by rw [hpc]; rfl)) (fun _ => Iff.rfl) rfl rfl (by rw [hpc]; rfl)
      (by rw [hpc]; rfl) (by simp)
  | enter =>
    obtain ⟨hpc, hcan⟩ := hen
    have hnot : s.mutex.owner ≠ some .closer := by
      intro howner
      obtain ⟨⟨t, n⟩, hheld, rfl⟩ := Option.map_eq_some_iff.mp howner
      have hcount := (hs.closer.held n).mp hheld
      simp [hpc, StopPc.count] at hcount
    refine hs.of_stop .testing _ (by simp [hpc]) (by simp [hpc]) ?_
      (fun _ => Monitor.held_enter_iff hcan (by simp)) rfl rfl (by rw [hpc]; rfl)
      (by rw [hpc]; rfl) (by simp)
    intro n
    rw [Monitor.held_enter_of_not_owner hcan hnot]
    simp [StopPc.count, eq_comm]
  -- the thread has not ended, since its kill token has not been put
  | test =>
    have hpc : s.closer = .testing := hen
    have hset := hs.closer.set (by rw [hpc]; rfl)
    have hnot := not_left hs.closer hs.queue (by rw [hpc]; rfl)
    have hnext : s.stopNext .test = { s with closer := .entering } := by
      simp only [stopNext, hset, if_true]
      cases hd : s.dispatcher with
      | ended => exact absurd (by simp [Left, hd]) hnot
      | looping | testing | popping | dispatching | killed | closing | leaving | signalling
        | exiting | exited => rfl
    rw [hnext]
    exact hs.of_stop .entering s.mutex (by simp [hpc]) (by simp [hpc])
      (hs.closer.held_of_count (by rw [hpc]; rfl)) (fun _ => Iff.rfl) rfl rfl (by rw [hpc]; rfl)
      (by rw [hpc]; rfl) (by simp)
  | reenter =>
    obtain ⟨hpc, hcan⟩ := hen
    have hheld : s.mutex.held = some (.closer, 0) := (hs.closer.held 0).mpr (by rw [hpc]; rfl)
    refine hs.of_stop .locking _ (by simp [hpc]) (by simp [hpc]) ?_
      (fun _ => Monitor.held_enter_iff hcan (by simp)) rfl rfl (by rw [hpc]; rfl)
      (by rw [hpc]; rfl) (by simp)
    intro n
    rw [Monitor.held_enter_of_held hheld]
    simp [StopPc.count, eq_comm]
  | lockQueue =>
    obtain ⟨hpc, -⟩ := hen
    refine ⟨?_, hs.dispatcher.congr rfl (fun _ => Iff.rfl) (fun h => by cases h),
      hs.queue.congr Iff.rfl rfl rfl rfl rfl fun _ => rfl⟩
    exact hs.closer.of_step (by simp [hpc]) (by simp [stopNext])
      (hs.closer.held_of_count (by rw [hpc]; rfl)) rfl rfl
      (hs.closer.token.trans (by rw [hpc]; rfl))
      (fun h => by cases h) (fun h => by cases h) fun _ => hs.closer.set (by rw [hpc]; rfl)
  | putToken => exact hs.putToken hen
  | wait => exact hs.wait hen
  | resume => exact hs.resume hen
  | join =>
    obtain ⟨hpc, hended⟩ := hen
    refine ⟨?_, hs.dispatcher.congr rfl (fun _ => Iff.rfl) id,
      hs.queue.congr Iff.rfl rfl rfl rfl rfl
        fun h => absurd h (hs.queue.not_locked (by simp [hpc]))⟩
    exact hs.closer.of_step (by simp [hpc]) (by simp [stopNext])
      (hs.closer.held_of_count (by rw [hpc]; rfl)) rfl rfl
      (hs.closer.token.trans (by rw [hpc]; rfl))
      (fun _ => Or.inr (Or.inr hended)) (fun h => by cases h) (fun h => by cases h)
  | leaveInner =>
    have hpc : s.closer = .forgotten := hen
    have hheld : s.mutex.held = some (.closer, 1) := (hs.closer.held 1).mpr (by rw [hpc]; rfl)
    refine hs.of_stop .stopped _ (by simp [hpc]) (by simp [hpc]) ?_
      (fun _ => Monitor.held_exit_iff (Monitor.owner_of_held hheld) (by simp)) rfl rfl
      (by rw [hpc]; rfl) (by rw [hpc]; rfl) (by simp)
    intro n
    simp [Monitor.exit, hheld, StopPc.count]
  | leave =>
    have hpc : s.closer = .stopped := hen
    have hheld : s.mutex.held = some (.closer, 0) := (hs.closer.held 0).mpr (by rw [hpc]; rfl)
    refine hs.of_stop .finished _ (by simp [hpc]) (by simp [hpc]) ?_
      (fun _ => Monitor.held_exit_iff (Monitor.owner_of_held hheld) (by simp)) rfl rfl
      (by rw [hpc]; rfl) (by rw [hpc]; rfl) (by simp)
    intro n
    simp [Monitor.exit, hheld, StopPc.count]

/-- A step of the dispatch thread that leaves the queue alone, neither leads out of its loop nor
signals, and is taken while it does not own `@mutex`. -/
theorem Ok.of_dispatch (hs : s.Ok) (pc : DrainPc ε) (locked : Option Party)
    (howner : s.mutex.owner ≠ some .dispatcher)
    (hpc : pc ≠ .signalling ∧ pc ≠ .exiting)
    (hlocked : locked ≠ some .closer ∨ locked = s.queueMutex)
    (hlocks : locked = some .dispatcher → pc = .testing ∨ pc = .closing)
    (hsig : { s with dispatcher := pc }.Signalled ↔ s.Signalled)
    (hleft : { s with dispatcher := pc }.Left ↔ s.Left) :
    Ok { s with dispatcher := pc, queueMutex := locked } := by
  refine ⟨hs.closer.congr rfl (fun _ => Iff.rfl) rfl rfl rfl hsig rfl,
    DispatcherOk.of_not_owner rfl howner hpc hlocks,
    hs.queue.congr hleft rfl rfl rfl rfl fun h => ?_⟩
  obtain hne | heq := hlocked
  · exact absurd h hne
  · exact hs.queue.locks (heq.symm.trans h)

/-- A dispatch thread that is about to signal has got `@mutex` after the kill token had been put,
and so from a shutdown thread that waits. -/
theorem Ok.waiting_of_signalling (hs : s.Ok) (hpc : s.dispatcher = .signalling) :
    s.closer = .waiting := by
  have hheld := hs.dispatcher.signals (Or.inl hpc)
  have htoken : s.closer.token = true := by
    rw [← hs.closer.token]
    exact (hs.queue.left (by simp [Left, hpc])).1
  have hcount (n : ℕ) : s.closer.count ≠ some n := by
    intro hcount
    have hheld' := (hs.closer.held n).mpr hcount
    simp [hheld] at hheld'
  have hheard : s.closer.heard = false := by
    by_contra hheard
    have hsig := hs.closer.heard (by simpa using hheard)
    simp [Signalled, hpc] at hsig
  cases hcloser : s.closer with
  | waiting => rfl
  | idle | called | testing | entering | locking | putting => simp [hcloser, StopPc.token] at htoken
  | put => exact absurd (by rw [hcloser]; rfl) (hcount 1)
  | joining | forgotten | stopped | finished => simp [hcloser, StopPc.heard] at hheard

/-- A pop takes what has been pushed first, and the kill token only when everything before it
has been dispatched. -/
theorem Ok.pop (hs : s.Ok) (hen : s.DispatchEnabled .pop) : (s.dispatchNext .pop).Ok := by
  obtain ⟨hpc, hen⟩ := hen
  have howner := hs.dispatcher.not_owner (by simp [hpc]) (by simp [hpc])
  have hlocked := hs.dispatcher.not_locked (by simp [hpc])
  obtain ⟨hclosed, rest, hearly, hitems⟩ := hs.queue.pending (by simp [Left, hpc])
  cases rest with
  | cons hash rest =>
    simp only [List.map_cons, List.cons_append] at hitems
    simp only [dispatchNext, hitems]
    refine ⟨hs.closer.congr rfl (fun _ => Iff.rfl) rfl rfl rfl (by simp [Signalled, hpc]) rfl,
      DispatcherOk.of_not_owner rfl howner (by simp) (fun h => absurd h hlocked),
      ⟨fun h => h.elim, fun _ => ⟨hclosed, rest, ?_, rfl⟩, hs.queue.late, hs.queue.locks⟩⟩
    simp [← hearly]
  | nil =>
    cases hgraceful : s.queue.graceful with
    | false => simp [hitems, hgraceful] at hen
    | true =>
      -- the kill token comes after everything that has been pushed before it
      simp only [hgraceful, List.map_nil, List.nil_append, if_true] at hitems
      simp only [dispatchNext, hitems]
      refine ⟨hs.closer.congr rfl (fun _ => Iff.rfl) rfl rfl rfl (by simp [Signalled, hpc]) rfl,
        DispatcherOk.of_not_owner rfl howner (by simp) (fun h => absurd h hlocked),
        ⟨fun _ => ⟨hgraceful, by simpa using hearly⟩, fun h => absurd trivial h,
          hs.queue.late, hs.queue.locks⟩⟩

/-- The signal reaches the shutdown thread in its wait. -/
theorem Ok.broadcast (hs : s.Ok) (hpc : s.dispatcher = .signalling) :
    (s.dispatchNext .broadcast).Ok := by
  have hheld := hs.dispatcher.signals (Or.inl hpc)
  have hleft : s.Left := by simp [Left, hpc]
  have hsig : ¬s.Signalled := by simp [Signalled, hpc]
  have hwaiting := hs.waiting_of_signalling hpc
  obtain ⟨hw, -⟩ := hs.closer.waits hwaiting hsig
  refine ⟨⟨hs.closer.held, hs.closer.token, fun h => absurd hwaiting h,
    fun _ h => absurd (Or.inl rfl) h, fun _ _ => ⟨rfl, ?_⟩, fun _ => Or.inl rfl, fun h => ?_,
    hs.closer.set⟩, ⟨fun _ _ => Or.inr (Or.inr rfl), fun _ => hheld, fun h => ?_⟩,
    hs.queue.congr (iff_of_true trivial hleft) rfl rfl rfl rfl hs.queue.locks⟩
  · simp [dispatchNext, Monitor.broadcast, hw]
  · simp [dispatchNext, hwaiting] at h
  · exact absurd h (hs.dispatcher.not_locked (by simp [hpc]))

theorem ok_dispatchNext (hs : s.Ok) {act : DispatchAct} (hen : s.DispatchEnabled act)
    (hok : s.NoShutdownException (.dispatch act)) : (s.dispatchNext act).Ok := by
  cases act with
  | lockQueue =>
    obtain ⟨hpc | hpc, -⟩ := hen
    · have howner := hs.dispatcher.not_owner (by simp [hpc]) (by simp [hpc])
      simp only [dispatchNext, hpc]
      exact hs.of_dispatch .testing _ howner (by simp) (Or.inl (by simp)) (fun _ => Or.inl rfl)
        (by simp [Signalled, hpc]) (by simp [Left, hpc])
    · have howner := hs.dispatcher.not_owner (by simp [hpc]) (by simp [hpc])
      simp only [dispatchNext, hpc]
      exact hs.of_dispatch .closing _ howner (by simp) (Or.inl (by simp)) (fun _ => Or.inr rfl)
        (by simp [Signalled, hpc]) (by simp [Left, hpc])
  | testClosed =>
    have hpc : s.dispatcher = .testing := hen
    have howner := hs.dispatcher.not_owner (by simp [hpc]) (by simp [hpc])
    have hclosed := (hs.queue.pending (by simp [Left, hpc])).1
    simp only [dispatchNext, hclosed]
    exact hs.of_dispatch .popping _ howner (by simp) (Or.inl (by simp)) (fun h => by cases h)
      (by simp [Signalled, hpc]) (by simp [Left, hpc])
  | pop => exact hs.pop hen
  | acquire =>
    obtain ⟨⟨hash, hpc⟩, hcan⟩ := hen
    refine ⟨hs.closer.congr rfl (fun _ => Monitor.held_enter_iff hcan (by simp)) rfl rfl rfl
      Iff.rfl rfl, ⟨fun _ _ => Or.inl ⟨hash, hpc⟩, fun h => ?_, hs.dispatcher.locks⟩,
      hs.queue.congr Iff.rfl rfl rfl rfl rfl hs.queue.locks⟩
    simp [dispatchNext, hpc] at h
  | release =>
    obtain ⟨⟨hash, hpc⟩, howner⟩ := hen
    refine ⟨hs.closer.congr rfl (fun _ => Monitor.held_exit_iff howner (by simp)) rfl rfl rfl
      Iff.rfl rfl, ⟨fun _ _ => Or.inl ⟨hash, hpc⟩, fun h => ?_, hs.dispatcher.locks⟩,
      hs.queue.congr Iff.rfl rfl rfl rfl rfl hs.queue.locks⟩
    simp [dispatchNext, hpc] at h
  | finish =>
    obtain ⟨⟨hash, hpc⟩, howner⟩ := hen
    exact hs.of_dispatch .looping s.queueMutex howner (by simp) (Or.inr rfl)
      (fun h => absurd h (hs.dispatcher.not_locked (by simp [hpc]))) (by simp [Signalled, hpc])
      (by simp [Left, hpc])
  | raiseShutdown => exact hok.elim
  | markClosed =>
    have hpc : s.dispatcher = .closing := hen
    have howner := hs.dispatcher.not_owner (by simp [hpc]) (by simp [hpc])
    have hleft : s.Left := by simp [Left, hpc]
    refine ⟨hs.closer.congr rfl (fun _ => Iff.rfl) rfl rfl rfl
      (by simp [Signalled, dispatchNext, hpc]) rfl,
      DispatcherOk.of_not_owner rfl howner (by simp [dispatchNext]) (fun h => by cases h),
      ⟨fun _ => hs.queue.left hleft, fun h => absurd trivial h, hs.queue.late,
        fun h => by cases h⟩⟩
  | enterMutex =>
    obtain ⟨hpc, hcan⟩ := hen
    have howner := hs.dispatcher.not_owner (by simp [hpc]) (by simp [hpc])
    have hleft : s.Left := by simp [Left, hpc]
    exact ⟨hs.closer.congr rfl (fun _ => Monitor.held_enter_iff hcan (by simp)) rfl rfl rfl
      (by simp [Signalled, dispatchNext, hpc]) rfl,
      ⟨fun _ _ => Or.inr (Or.inl rfl), fun _ => Monitor.held_enter_of_not_owner hcan howner,
        fun h => absurd h (hs.dispatcher.not_locked (by simp [hpc]))⟩,
      hs.queue.congr (iff_of_true trivial hleft) rfl rfl rfl rfl hs.queue.locks⟩
  | broadcast => exact hs.broadcast hen
  | leaveMutex =>
    have hpc : s.dispatcher = .exiting := hen
    have hheld := hs.dispatcher.signals (Or.inr hpc)
    have hleft : s.Left := by simp [Left, hpc]
    refine ⟨hs.closer.congr rfl
      (fun _ => Monitor.held_exit_iff (Monitor.owner_of_held hheld) (by simp)) rfl rfl rfl
      (by simp [Signalled, dispatchNext, hpc]) rfl, ⟨fun n hn => ?_, fun h => ?_, fun h => ?_⟩,
      hs.queue.congr (iff_of_true trivial hleft) rfl rfl rfl rfl hs.queue.locks⟩
    · simp [dispatchNext, Monitor.exit, hheld] at hn
    · simp [dispatchNext] at h
    · exact absurd h (hs.dispatcher.not_locked (by simp [hpc]))
  | exit =>
    have hpc : s.dispatcher = .exited := hen
    have howner := hs.dispatcher.not_owner (by simp [hpc]) (by simp [hpc])
    exact hs.of_dispatch .ended s.queueMutex howner (by simp) (Or.inr rfl)
      (fun h => absurd h (hs.dispatcher.not_locked (by simp [hpc]))) (by simp [Signalled, hpc])
      (by simp [Left, hpc])

/-! ## Every run -/

theorem ok_push (hs : s.Ok) (hash : ε) : (s.next (.push hash)).Ok := by
  simp only [next]
  cases hgraceful : s.queue.graceful with
  | true =>
    rw [if_pos rfl]
    refine ⟨hs.closer.congr rfl (fun _ => Iff.rfl) rfl rfl rfl Iff.rfl rfl,
      hs.dispatcher.congr rfl (fun _ => Iff.rfl) id,
      ⟨hs.queue.left, fun hleft => ?_, fun h => by simp [QueueWithPipe.push, hgraceful] at h,
        hs.queue.locks⟩⟩
    obtain ⟨hclosed, rest, hearly, hitems⟩ := hs.queue.pending hleft
    refine ⟨hclosed, rest, hearly, ?_⟩
    simp [QueueWithPipe.push, hitems, hgraceful]
  | false =>
    rw [if_neg (by simp)]
    have hnot : ¬s.Left := fun hleft => by simp [(hs.queue.left hleft).1] at hgraceful
    refine ⟨hs.closer.congr rfl (fun _ => Iff.rfl) rfl rfl rfl Iff.rfl rfl,
      hs.dispatcher.congr rfl (fun _ => Iff.rfl) id,
      ⟨fun h => absurd h hnot, fun _ => ?_, hs.queue.late, hs.queue.locks⟩⟩
    obtain ⟨hclosed, rest, hearly, hitems⟩ := hs.queue.pending hnot
    refine ⟨hclosed, rest ++ [hash], by simp [← hearly], ?_⟩
    simp [QueueWithPipe.push, hitems, hgraceful]

theorem ok_next (hs : s.Ok) {a : DrainAct ε} (hen : s.Enabled a)
    (hok : s.NoShutdownException a) : (s.next a).Ok := by
  cases a with
  | push hash => exact ok_push hs hash
  | dispatch act => exact ok_dispatchNext hs hen hok
  | stop act => exact ok_stopNext hs hen
  | acquire i =>
    have hcan : s.mutex.CanEnter (.other i) := hen
    exact ⟨hs.closer.congr rfl (fun _ => Monitor.held_enter_iff hcan (by simp)) rfl rfl rfl
      Iff.rfl rfl, hs.dispatcher.congr rfl (fun _ => Monitor.held_enter_iff hcan (by simp)) id,
      hs.queue.congr Iff.rfl rfl rfl rfl rfl hs.queue.locks⟩
  | release i =>
    have howner : s.mutex.owner = some (.other i) := hen
    exact ⟨hs.closer.congr rfl (fun _ => Monitor.held_exit_iff howner (by simp)) rfl rfl rfl
      Iff.rfl rfl, hs.dispatcher.congr rfl (fun _ => Monitor.held_exit_iff howner (by simp)) id,
      hs.queue.congr Iff.rfl rfl rfl rfl rfl hs.queue.locks⟩

theorem ok_of_reachable (h : (drain ε).Reachable NoShutdownException s) : s.Ok := by
  refine h.invariant ?_ fun _ _ hs hen hok => ok_next hs hen hok
  rintro _ rfl
  exact ⟨closerOk_initial, dispatcherOk_initial, queueOk_initial⟩

/-- When the shutdown thread owns `@mutex`, its place says so. -/
theorem count_of_owner (hs : s.CloserOk) (howner : s.mutex.owner = some .closer) :
    s.closer.count ≠ none := by
  obtain ⟨⟨t, n⟩, hheld, rfl⟩ := Option.map_eq_some_iff.mp howner
  rw [(hs.held n).mp hheld]
  simp

/-- The two threads do not wait for each other. -/
theorem not_both_wait (hs : s.Ok) : ¬(s.CloserWaits ∧ s.DispatcherWaits) := by
  rintro ⟨hcloser, hdispatcher⟩
  have hputting (hlocked : s.queueMutex = some .closer) : s.closer = .putting :=
    hs.queue.locks hlocked
  cases hpc : s.closer with
  | called =>
    simp only [CloserWaits, hpc] at hcloser
    cases hd : s.dispatcher <;> simp only [DispatcherWaits, hd] at hdispatcher
    case looping | killed => simp [hputting hdispatcher] at hpc
    case popping => exact hs.dispatcher.not_owner (by simp [hd]) (by simp [hd]) hcloser
    case dispatching | leaving => simp [hcloser] at hdispatcher
  | locking =>
    simp only [CloserWaits, hpc] at hcloser
    obtain hd | hd := hs.dispatcher.locks hcloser <;>
      simp [DispatcherWaits, hd] at hdispatcher
  | waiting =>
    cases hd : s.dispatcher <;> simp only [DispatcherWaits, hd] at hdispatcher
    case looping | killed => simp [hputting hdispatcher] at hpc
    case popping =>
      -- the kill token is still in the queue
      obtain ⟨-, rest, -, hitems⟩ := hs.queue.pending (by simp [Left, hd])
      simp [hdispatcher, hs.closer.token, hpc, StopPc.token] at hitems
    case dispatching | leaving =>
      exact count_of_owner hs.closer hdispatcher (by rw [hpc]; rfl)
  -- `join` is called after the signal, when only the end of the thread is left to wait for
  | joining =>
    obtain hd | hd | hd := hs.closer.heard (by rw [hpc]; rfl) <;>
      simp [DispatcherWaits, hd] at hdispatcher
  | idle | testing | entering | putting | put | forgotten | stopped | finished =>
    simp [CloserWaits, hpc] at hcloser

end Drain

end ZookeeperClient
