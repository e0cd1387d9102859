import ZookeeperClient.Lifecycle.Defs

/-!
# Close and reopen of the Java backend

One client of `java/zookeeper_base.rb` after its constructor: any number of calls of `close` and
`reopen` on any threads, the dispatch threads, and the threads of the Java client, which push to
`@event_queue`. A session is an object of `ZooKeeper`; sessions are numbered in the order in which
they are made. A call of `close` is its shutdown thread.

In this backend `close` is guarded by `@_closed`, which nothing sets back, and `reopen` does not set
up a dispatch thread. `replace_jzk!` closes the session before it in `ensure`, and thus also when
`ZooKeeper.new` raises an exception, which leaves `@jzk` as it is.

## Main definitions

- `JavaPc`, `JavaControlAct` — where a call of `close` or `reopen` is, and its steps
- `JavaLifecycle`, `JavaLifecycleAct`, `javaLifecycle` — the state, the steps and the system
-/

namespace ZookeeperClient

open Transition

/-- Where a call of `close` or `reopen` is. -/
inductive JavaPc where
  | idle
  /-- Called; `@mutex` has not been taken yet. -/
  | called (op : ControlOp)
  /-- `@_closed` has been set; at the start of `stop_dispatch_thread!`. -/
  | testing
  /-- `@dispatcher.join(0)` has not returned the thread. -/
  | tested
  /-- In `@dispatch_shutdown_cond.wait(2)`, without the mutex. -/
  | waiting
  /-- In `@dispatcher.join(2)`. -/
  | woken
  /-- About to call `@jzk.close`. -/
  | closing
  /-- `reopen` is about to call `ZooKeeper.new`. -/
  | replacing
  /-- In `ensure`: about to close `orig_jzk`. The flag says whether `ZooKeeper.new` has raised. -/
  | ensuring (orig : ℕ) (raises : Bool)
  /-- About to give the mutex back; `reopen` is in `wait_until_connected` here. -/
  | leaving (op : ControlOp)
  | finished (op : ControlOp)
  | raised (op : ControlOp)
  deriving DecidableEq, Repr

/-- The call holds `@mutex`. -/
def JavaPc.holds : JavaPc → Bool
  | .testing | .tested | .woken | .closing | .replacing | .ensuring _ _ | .leaving _ => true
  | .idle | .called _ | .waiting | .finished _ | .raised _ => false

/-- The steps of a call of `close` or `reopen`. -/
inductive JavaControlAct where
  /-- `@mutex` is taken, and `close` tests and sets `@_closed`. -/
  | enter
  /-- `if @dispatcher` and `@dispatcher.join(0)`. -/
  | test
  /-- `event_queue.graceful_close!`, and the wait begins. -/
  | beginWait
  | resume
  /-- `@dispatcher.join(2)` returns the thread, or is called on `nil`. -/
  | join
  | joinTimeout
  /-- `@jzk.close`. -/
  | closeJzk
  /-- `ZooKeeper.new` returns, and `@jzk` is replaced. -/
  | construct
  | constructRaises
  /-- `orig_jzk.close`. -/
  | closeOrig
  | leave
  deriving DecidableEq, Repr

/-- The state of a client. Events carry the number of their session. -/
structure JavaLifecycle (ε : Type) where
  /-- The call that holds `@mutex`. -/
  owner : Option ℕ
  calls : ℕ → JavaPc
  /-- The number of the next call. -/
  nextCall : ℕ
  delivery : Delivery (ℕ × ε)
  /-- `@_closed`. -/
  closed : Bool
  jzk : ℕ
  /-- The number of the next session. -/
  nextJzk : ℕ
  /-- `close` has been called on a session. -/
  jzkClosed : ℕ → Bool

/-- The steps of a client. -/
inductive JavaLifecycleAct (ε : Type) where
  /-- `close` or `reopen` is called. -/
  | call (op : ControlOp)
  /-- A step of call `c`. -/
  | control (c : ℕ) (act : JavaControlAct)
  /-- A step of dispatch thread `d`. -/
  | thread (d : ℕ) (act : ThreadAct)
  /-- `queue.push(hash)`, by a thread of the Java client. -/
  | push (h : ℕ) (event : ε)
  deriving Repr

namespace JavaLifecycle

variable {ε : Type}

/-- A client whose constructor has returned: the first session has been made, and the dispatch
thread has been set up if the session was connected in time. -/
def initial (connected : Bool) : JavaLifecycle ε where
  owner := none
  calls := fun _ => .idle
  nextCall := 0
  delivery :=
    if connected then .initial
    else { Delivery.initial with dispatcher := none, threads := fun _ => .unborn, nextThread := 0 }
  closed := false
  jzk := 0
  nextJzk := 1
  jzkClosed := fun _ => false

/-- Call `c` goes on to `pc`. -/
def callTo (c : ℕ) (pc : JavaPc) (s : JavaLifecycle ε) : JavaLifecycle ε :=
  { s with calls := Function.update s.calls c pc }

/-- `@dispatcher = nil`. -/
def forgetDispatcher (s : JavaLifecycle ε) : JavaLifecycle ε :=
  { s with delivery := { s.delivery with dispatcher := none } }

/-- `close` is called on a session. -/
def closeSession (h : ℕ) (s : JavaLifecycle ε) : JavaLifecycle ε :=
  { s with jzkClosed := Function.update s.jzkClosed h true }

def ControlEnabled (s : JavaLifecycle ε) (c : ℕ) : JavaControlAct → Prop
  | .enter => (∃ op, s.calls c = .called op) ∧ s.owner = none
  | .test => s.calls c = .testing
  | .beginWait => s.calls c = .tested
  | .resume => s.calls c = .waiting ∧ s.owner = none
  | .join => s.calls c = .woken ∧
      ∀ d, s.delivery.dispatcher = some d → (s.delivery.threads d).ended = true
  | .joinTimeout => s.calls c = .woken ∧
      ∃ d, s.delivery.dispatcher = some d ∧ (s.delivery.threads d).ended = false
  | .closeJzk => s.calls c = .closing
  | .construct | .constructRaises => s.calls c = .replacing
  | .closeOrig => ∃ orig raises, s.calls c = .ensuring orig raises
  | .leave => ∃ op, s.calls c = .leaving op

def controlNext (s : JavaLifecycle ε) (c : ℕ) : JavaControlAct → JavaLifecycle ε
  | .enter =>
    match s.calls c with
    | .called .close =>
      if s.closed then { s.callTo c (.leaving .close) with owner := some c }
      else { s.callTo c .testing with closed := true, owner := some c }
    | .called .reopen => { s.callTo c .replacing with owner := some c }
    | _ => s
  | .test =>
    match s.delivery.dispatcher with
    | none => s.callTo c .closing
    | some d =>
      if (s.delivery.threads d).ended then (s.callTo c .closing).forgetDispatcher
      else s.callTo c .tested
  | .beginWait =>
    { s.callTo c .waiting with
      delivery := { s.delivery with queue := s.delivery.queue.gracefulClose }
      owner := none }
  | .resume => { s.callTo c .woken with owner := some c }
  | .join =>
    match s.delivery.dispatcher with
    | none => { s.callTo c (.raised .close) with owner := none }
    | some _ => (s.callTo c .closing).forgetDispatcher
  | .joinTimeout => (s.callTo c .closing).forgetDispatcher
  | .closeJzk => (s.callTo c (.leaving .close)).closeSession s.jzk
  | .construct =>
    { s.callTo c (.ensuring s.jzk false) with jzk := s.nextJzk, nextJzk := s.nextJzk + 1 }
  | .constructRaises => s.callTo c (.ensuring s.jzk true)
  | .closeOrig =>
    match s.calls c with
    | .ensuring orig raises =>
      if raises then { (s.callTo c (.raised .reopen)).closeSession orig with owner := none }
      else (s.callTo c (.leaving .reopen)).closeSession orig
    | _ => s
  | .leave =>
    match s.calls c with
    | .leaving op => { s.callTo c (.finished op) with owner := none }
    | _ => s

def Enabled (s : JavaLifecycle ε) : JavaLifecycleAct ε → Prop
  | .call _ => True
  | .control c act => s.ControlEnabled c act
  | .thread d act => s.delivery.Enabled (s.owner = none) d act
  | .push h _ => h < s.nextJzk

def next (s : JavaLifecycle ε) : JavaLifecycleAct ε → JavaLifecycle ε
  | .call op => { s.callTo s.nextCall (.called op) with nextCall := s.nextCall + 1 }
  | .control c act => s.controlNext c act
  | .thread d act => { s with delivery := s.delivery.next d act }
  | .push h event => { s with delivery := s.delivery.push (h, event) }

end JavaLifecycle

/-- The system of one client of the Java backend. -/
def javaLifecycle (ε : Type) : System (JavaLifecycle ε) (JavaLifecycleAct ε) where
  Init s := ∃ connected, s = JavaLifecycle.initial connected
  Enabled := JavaLifecycle.Enabled
  next := JavaLifecycle.next

end ZookeeperClient
