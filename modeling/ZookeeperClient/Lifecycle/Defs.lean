import ZookeeperClient.Ext.Transport
import ZookeeperClient.Ruby.DispatchThread

/-!
# Close and reopen against the threads of a client

One client of the C backend after its constructor: the C client's threads and the event
threads of all handles, the dispatch threads, and any number of calls of `close` and
`reopen`. A call of `close` is its shutdown thread; calls are numbered in the order in which
they are made.

`@mutex` is held from `enter` to `beginWait`, from `resume` on and until `leave`. While a
shutdown thread waits on `@dispatch_shutdown_cond` others may take the mutex. The call of
`setup_dispatch_thread!` at the end of `reopen` runs without the mutex: `@dispatcher ||=` reads
the variable, starts a thread and assigns it in three steps.

Pipes do not become full, and no exception ends an event thread; these are in `Lifecycle.Faults`.

## Main definitions

- `ControlPc`, `ControlAct` — where a call of `close` or `reopen` is, and its steps
- `Lifecycle`, `LifecycleAct` — the state and the steps
- `lifecycle` — the system
-/

namespace ZookeeperClient

open Transition

/-- What is called. -/
inductive ControlOp where
  | close
  | reopen
  deriving DecidableEq, Repr

/-- Where a call of `close` or `reopen` is. -/
inductive ControlPc where
  | idle
  /-- Called; `@mutex` has not been taken yet. -/
  | called (op : ControlOp)
  /-- At the start of `stop_dispatch_thread!`. -/
  | testing
  /-- `@dispatcher.join(0)` has not returned the thread. -/
  | tested
  /-- In `@dispatch_shutdown_cond.wait(2)`, without the mutex. -/
  | waiting
  /-- In `@dispatcher.join(2)`. -/
  | woken
  /-- `reopen` is about to call `CZookeeper.new`. -/
  | replacing
  /-- `CZookeeper#close` has been called on handle `h`. -/
  | closing (h : ℕ) (op : ControlOp)
  /-- In `@event_thread.join` of handle `h`. -/
  | joining (h : ℕ) (op : ControlOp)
  /-- In `zookeeper_close` for handle `h`. -/
  | destroying (h : ℕ) (op : ControlOp)
  /-- About to give the mutex back; `reopen` is in `wait_until_connected` here. -/
  | leaving (op : ControlOp)
  /-- `reopen` is about to call `setup_dispatch_thread!`. -/
  | settingUp
  /-- `@dispatcher` was `nil`. -/
  | spawning
  /-- Thread `d` has been started and is about to be assigned to `@dispatcher`. -/
  | assigning (d : ℕ)
  | finished
  | raised
  deriving DecidableEq, Repr

/-- The call holds `@mutex`. -/
def ControlPc.holds : ControlPc → Bool
  | .testing | .tested | .woken | .replacing | .closing _ _ | .joining _ _ | .destroying _ _
  | .leaving _ => true
  | .idle | .called _ | .waiting | .settingUp | .spawning | .assigning _ | .finished
  | .raised => false

/-- The call is in `@dispatcher ||= Thread.new`, after it has found `nil`. -/
def ControlPc.settingDispatcher : ControlPc → Bool
  | .spawning | .assigning _ => true
  | _ => false

/-- The steps of a call of `close` or `reopen`. -/
inductive ControlAct where
  /-- `@mutex` is taken. -/
  | enter
  /-- `if @dispatcher` and `@dispatcher.join(0)`. -/
  | test
  /-- `event_queue.graceful_close!`, and the wait begins. -/
  | beginWait
  /-- The wait ends, by the signal or by its timeout. -/
  | resume
  /-- `@dispatcher.join(2)` returns the thread, or is called on `nil`. -/
  | join
  /-- `@dispatcher.join(2)` times out. -/
  | joinTimeout
  /-- `CZookeeper.new` returns, and `@czk` is replaced. -/
  | replace
  | replaceRaises
  /-- The check of `closed?`, `shut_down!` and `wake_event_loop!`. -/
  | shutDown
  /-- `@event_thread.join` returns; `close_handle`, up to `zookeeper_close`. -/
  | closeHandle
  /-- `zookeeper_close` returns; `zkrb_queue_free`. -/
  | queueFree
  | leave
  /-- `@dispatcher ||=` reads the variable. -/
  | readDispatcher
  | spawn
  /-- `@dispatcher ||=` assigns the variable. -/
  | assign
  deriving DecidableEq, Repr

/-- The state of a client. Events carry the number of their handle. -/
structure Lifecycle (ε : Type) where
  /-- The call that holds `@mutex`. -/
  owner : Option ℕ
  calls : ℕ → ControlPc
  /-- The number of the next call. -/
  nextCall : ℕ
  delivery : Delivery (ℕ × ε)
  czk : ℕ
  /-- The number of the next `CZookeeper`. -/
  nextCzk : ℕ
  transports : ℕ → Transport ε
  /-- History: the events passed to `zkrb_enqueue` on the queue of a handle. -/
  enqueued : ℕ → List ε
  /-- History: what has been pushed to `@event_queue`. -/
  pushed : List (ℕ × ε)
  /-- History: the events that `zkrb_queue_free` found in the queue of a handle. -/
  discarded : ℕ → List ε
  /-- History: how often `zookeeper_close` has been called on a handle. -/
  destroyed : ℕ → ℕ

/-- The steps of a client. -/
inductive LifecycleAct (ε : Type) where
  /-- `close` or `reopen` is called. -/
  | call (op : ControlOp)
  /-- A step of call `c`. -/
  | control (c : ℕ) (act : ControlAct)
  /-- A step of dispatch thread `d`. -/
  | thread (d : ℕ) (act : ThreadAct)
  /-- `zkrb_enqueue`, by a thread of the C client. -/
  | enqueue (h : ℕ) (event : ε)
  /-- An internal step of the event thread of a handle. -/
  | eventThread (h : ℕ) (act : TransportAct ε)
  /-- `@event_queue.push(hash)`, by the event thread of a handle. -/
  | push (h : ℕ)
  deriving Repr

namespace Lifecycle

variable {ε : Type}

/-- A client whose constructor has returned. -/
def initial : Lifecycle ε where
  owner := none
  calls := fun _ => .idle
  nextCall := 0
  delivery := .initial
  czk := 0
  nextCzk := 1
  transports := fun _ => .initial
  enqueued := fun _ => []
  pushed := []
  discarded := fun _ => []
  destroyed := fun _ => 0

/-- Call `c` goes on to `pc`. -/
def callTo (c : ℕ) (pc : ControlPc) (s : Lifecycle ε) : Lifecycle ε :=
  { s with calls := Function.update s.calls c pc }

/-- A step of one handle's transport. -/
def step (h : ℕ) (act : TransportAct ε) (s : Lifecycle ε) : Lifecycle ε :=
  { s with transports := Function.update s.transports h ((s.transports h).next act) }

/-- `@dispatcher = nil`. -/
def forgetDispatcher (s : Lifecycle ε) : Lifecycle ε :=
  { s with delivery := { s.delivery with dispatcher := none } }

def ControlEnabled (s : Lifecycle ε) (c : ℕ) : ControlAct → Prop
  | .enter => (∃ op, s.calls c = .called op) ∧ s.owner = none
  | .test => s.calls c = .testing
  | .beginWait => s.calls c = .tested
  | .resume => s.calls c = .waiting ∧ s.owner = none
  | .join => s.calls c = .woken ∧
      ∀ d, s.delivery.dispatcher = some d → (s.delivery.threads d).ended = true
  | .joinTimeout => s.calls c = .woken ∧
      ∃ d, s.delivery.dispatcher = some d ∧ (s.delivery.threads d).ended = false
  | .replace => s.calls c = .replacing
  | .replaceRaises => s.calls c = .replacing
  | .shutDown => ∃ h op, s.calls c = .closing h op
  | .closeHandle => ∃ h op, s.calls c = .joining h op ∧ (s.transports h).eventThread = .exited
  | .queueFree => ∃ h op, s.calls c = .destroying h op
  | .leave => ∃ op, s.calls c = .leaving op
  | .readDispatcher => s.calls c = .settingUp
  | .spawn => s.calls c = .spawning
  | .assign => ∃ d, s.calls c = .assigning d

def controlNext (s : Lifecycle ε) (c : ℕ) : ControlAct → Lifecycle ε
  | .enter =>
    match s.calls c with
    | .called .close => { s.callTo c .testing with owner := some c }
    | .called .reopen => { s.callTo c .replacing with owner := some c }
    | _ => s
  | .test =>
    match s.delivery.dispatcher with
    | none => s.callTo c (.closing s.czk .close)
    | some d =>
      if (s.delivery.threads d).ended then
        (s.callTo c (.closing s.czk .close)).forgetDispatcher
      else s.callTo c .tested
  | .beginWait =>
    { s.callTo c .waiting with
      delivery := { s.delivery with queue := s.delivery.queue.gracefulClose }
      owner := none }
  | .resume => { s.callTo c .woken with owner := some c }
  | .join =>
    match s.delivery.dispatcher with
    | none => { s.callTo c .raised with owner := none }
    | some _ => (s.callTo c (.closing s.czk .close)).forgetDispatcher
  | .joinTimeout => (s.callTo c (.closing s.czk .close)).forgetDispatcher
  | .replace =>
    { s.callTo c (.closing s.czk .reopen) with
      czk := s.nextCzk
      nextCzk := s.nextCzk + 1 }
  | .replaceRaises => { s.callTo c .raised with owner := none }
  | .shutDown =>
    match s.calls c with
    | .closing h op =>
      if (s.transports h).closed then s.callTo c (.leaving op)
      else (s.callTo c (.joining h op)).step h .shutDown
    | _ => s
  | .closeHandle =>
    match s.calls c with
    | .joining h op =>
      if (s.transports h).closed then s.callTo c (.leaving op)
      else
        { (s.callTo c (.destroying h op)).step h .close with
          destroyed := Function.update s.destroyed h (s.destroyed h + 1) }
    | _ => s
  | .queueFree =>
    match s.calls c with
    | .destroying h op =>
      { (s.callTo c (.leaving op)).step h .free with
        discarded := Function.update s.discarded h (s.discarded h ++ (s.transports h).queue) }
    | _ => s
  | .leave =>
    match s.calls c with
    | .leaving .close => { s.callTo c .finished with owner := none }
    | .leaving .reopen => { s.callTo c .settingUp with owner := none }
    | _ => s
  | .readDispatcher =>
    s.callTo c (if s.delivery.dispatcher.isSome then .finished else .spawning)
  | .spawn =>
    { s.callTo c (.assigning s.delivery.nextThread) with delivery := s.delivery.spawn }
  | .assign =>
    match s.calls c with
    | .assigning d =>
      { s.callTo c .finished with delivery := { s.delivery with dispatcher := some d } }
    | _ => s

def Enabled (s : Lifecycle ε) : LifecycleAct ε → Prop
  | .call _ => True
  | .control c act => s.ControlEnabled c act
  | .thread d act => s.delivery.Enabled (s.owner = none) d act
  | .enqueue h event => h < s.nextCzk ∧ (s.transports h).Enabled (.enqueue event)
  | .eventThread h act =>
    h < s.nextCzk ∧ Transport.Internal act ∧ (s.transports h).Enabled act
  | .push h => h < s.nextCzk ∧ (s.transports h).Enabled .push

def next (s : Lifecycle ε) : LifecycleAct ε → Lifecycle ε
  | .call op => { s.callTo s.nextCall (.called op) with nextCall := s.nextCall + 1 }
  | .control c act => s.controlNext c act
  | .thread d act => { s with delivery := s.delivery.next d act }
  | .enqueue h event =>
    { s.step h (.enqueue event) with
      enqueued := Function.update s.enqueued h (s.enqueued h ++ [event]) }
  | .eventThread h act => s.step h act
  | .push h =>
    match (s.transports h).eventThread with
    | .delivering event =>
      { s.step h .push with
        delivery := s.delivery.push (h, event)
        pushed := s.pushed ++ [(h, event)] }
    | _ => s

end Lifecycle

/-- The system of one client under `close` and `reopen`. -/
def lifecycle (ε : Type) : System (Lifecycle ε) (LifecycleAct ε) where
  Init s := s = Lifecycle.initial
  Enabled := Lifecycle.Enabled
  next := Lifecycle.next

end ZookeeperClient
