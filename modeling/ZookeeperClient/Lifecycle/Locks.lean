import ZookeeperClient.Transition.LockOrder

/-!
# The locks of a client

The methods of `ZookeeperBase`, `CZookeeper` and `QueueWithPipe` on the C backend, as far as they
take locks, wait and join threads. A branch stands for what depends on anything else, and a method
that reads `@czk` goes on with any handle whose construction has succeeded. A wait that need not
end, such as the one for an item in the queue, is one for a flag that nobody sets.

The interpreter lock is a lock here for the functions in C, which keep it while they wait for
`zkrb_q_mutex` or for the threads of the C client. A thread that waits for a lock of Ruby has given
it up. Pipes do not become full: `Ext.PipeDeadlock` and `Handle.InterpreterLock` have what happens
then. The loop of `wait_until_connected`, which `reopen` is in with `@mutex` held, asks again and
again; it is no wait for anything.

## Main definitions

- `Lock`, `Flag`, `order` — the locks, what happens once, and the order of the locks
- `CZookeeper.close`, `ZookeeperBase.reopen`, … — the methods
- `Thread`, `body`, `life` — the threads

## Main results

- `blocked_waits_for_runnable` — whoever waits for a lock waits, in the end, for a thread that
  can go on
- `holds_nothing_while_parked` — whoever waits for something else has no lock
-/

namespace ZookeeperClient

namespace Locks

open Transition Locking

/-! ## Locks and flags -/

/-- The locks. `h` is the number of a handle, and `k` that of a call of `close`. -/
inductive Lock where
  /-- The life of a thread of `close`. -/
  | shutdownThread (k : ℕ)
  /-- `@mutex` of the client. -/
  | mutex
  /-- The life of an event thread. -/
  | eventThread (h : ℕ)
  /-- `@start_stop_mutex`. -/
  | startStopMutex (h : ℕ)
  /-- The interpreter lock. -/
  | gvl
  /-- The life of a thread of the C client. -/
  | clientThread (h : ℕ)
  /-- `@mutex` of the event queue. -/
  | queueMutex
  /-- `zkrb_q_mutex`. -/
  | zkrbQMutex
  deriving DecidableEq

inductive Flag where
  /-- The shutdown thread has been started. -/
  | closing (k : ℕ)
  /-- `@_running`. -/
  | running (h : ℕ)
  /-- `wake_event_loop!` has been called. -/
  | woken (h : ℕ)
  /-- `zookeeper_close` has been called. -/
  | zkClosing (h : ℕ)
  | never
  deriving DecidableEq

/-- From the outermost lock to the innermost. -/
def Lock.rank : Lock → ℕ
  | .shutdownThread _ => 6
  | .mutex => 5
  | .eventThread _ => 4
  | .startStopMutex _ => 3
  | .gvl => 2
  | .clientThread _ => 1
  | .queueMutex | .zkrbQMutex => 0

/-- The monitors. -/
def Lock.Reentrant : Lock → Prop
  | .mutex | .startStopMutex _ => True
  | _ => False

/-- What has happened before one waits for a lock. -/
def Lock.needs : Lock → Set Flag
  | .shutdownThread k => {.closing k}
  | .eventThread h => {.running h, .woken h}
  | .clientThread h => {.zkClosing h}
  | _ => ∅

def order : Discipline Lock Flag :=
  ⟨Lock.rank, Lock.Reentrant, Lock.needs⟩

/-- A part of a method. -/
abbrev Section := Code Lock Flag

/-- One or the other. -/
def either (c d : Section) : Section :=
  .branch fun
    | 0 => c
    | _ => d

/-- Perhaps. -/
def optional (c : Section) : Section :=
  either .skip c

/-- Perhaps there is an exception. -/
def mayRaise : Section :=
  optional .raise

/-- One after the other. -/
def steps : List Section → Section
  | [] => .skip
  | c :: cs => .seq c (steps cs)

/-! ## The queue of the client -/

namespace QueueWithPipe

def closed? : Section :=
  .sync .queueMutex .skip

def close : Section :=
  .sync .queueMutex .skip

def gracefulClose : Section :=
  .sync .queueMutex .skip

/-- It waits in `Queue#pop` without the mutex. -/
def pop : Section :=
  steps [closed?, mayRaise, optional (.park .never), optional (steps [close, .raise])]

end QueueWithPipe

/-! ## A handle -/

namespace CZookeeper

variable (h : ℕ)

def closed? : Section :=
  .sync (.startStopMutex h) .skip

def state : Section :=
  steps [closed? h, optional (.sync .gvl mayRaise)]

def connected? : Section :=
  state h

/-- `wait` ends after the timeout at the latest. -/
def waitUntilRunning : Section :=
  .sync (.startStopMutex h) (optional (.wait (.startStopMutex h) none))

def waitUntilConnected : Section :=
  steps [waitUntilRunning h, optional (steps [.many (connected? h), connected? h])]

def zkcSetRunningAndNotify : Section :=
  .sync (.startStopMutex h) (.set (.running h))

def zkrbInit : Section :=
  steps [.sync .gvl mayRaise, zkcSetRunningAndNotify h]

def zkrbDequeue : Section :=
  .sync .gvl (steps [mayRaise, .sync .zkrbQMutex .skip])

/-- `get_next_event` and `@event_queue.push`: it waits for the pipe without the interpreter lock,
for an event or for `wake_event_loop!`. -/
def iterateEventDelivery : Section :=
  steps [.many (steps [zkrbDequeue, optional (either .skip (.park (.woken h))), mayRaise]),
    mayRaise]

def eventThreadBody : Section :=
  steps [.sync (.startStopMutex h) (optional (.wait (.startStopMutex h) (some (.running h)))),
    optional (.rescue (.many (iterateEventDelivery h)))]

def shutDown : Section :=
  .sync (.startStopMutex h) .skip

def wakeEventLoop : Section :=
  .sync .gvl (steps [mayRaise, .sync .zkrbQMutex (.set (.woken h))])

def stopEventThread : Section :=
  optional (steps [wakeEventLoop h, .join (.eventThread h)])

/-- `zookeeper_close` waits for the threads of the C client, and `zkrb_queue_free` comes after
it. -/
def closeHandle : Section :=
  .sync .gvl
    (steps [mayRaise, .set (.zkClosing h), .join (.clientThread h), .sync .zkrbQMutex .skip])

def close : Section :=
  steps [closed? h, optional (steps [shutDown h, stopEventThread h,
    .sync (.startStopMutex h) (optional (closeHandle h))])]

/-- A callback enqueues its event. -/
def callback : Section :=
  .sync .zkrbQMutex .skip

/-- The threads of the C client, up to the end and within `zookeeper_close`. -/
def clientThreadBody : Section :=
  steps [.many callback, .park (.zkClosing h), .many callback]

end CZookeeper

/-! ## The client -/

namespace ZookeeperBase

/-- With the value of `@czk`, which may be `nil`. -/
def withCzk (c : ℕ → Section) : Section :=
  .branch fun
    | 0 => .raise
    | h + 1 => .ifSet (.running h) (c h)

def czk : Section :=
  .sync .mutex .skip

def closed? : Section :=
  .sync .mutex (optional (withCzk CZookeeper.closed?))

def state : Section :=
  steps [closed?, optional (steps [czk, withCzk CZookeeper.state])]

/-- A method of `threadsafe_inquisitor`. -/
def inquisitor : Section :=
  .sync .mutex (optional (withCzk CZookeeper.connected?))

def setDefaultGlobalWatcher : Section :=
  .sync .mutex .skip

def assertOpen : Section :=
  steps [state, mayRaise, inquisitor, mayRaise]

def setupCall : Section :=
  .sync .mutex .skip

/-- An operation waits for the server without the interpreter lock. -/
def operation : Section :=
  steps [mayRaise, assertOpen, setupCall, czk, .sync .gvl mayRaise, optional (.park .never),
    .sync .gvl mayRaise]

def getCompletion : Section :=
  .sync .mutex .skip

def getWatcher : Section :=
  .sync .mutex .skip

/-- Both times that it joins the dispatch thread, it does so for two seconds at most. -/
def stopDispatchThread : Section :=
  optional (.sync .mutex (steps [QueueWithPipe.gracefulClose, .wait .mutex none]))

/-- The block of the thread of `close`. -/
def shutdownThreadBody (k : ℕ) : Section :=
  steps [.park (.closing k), .sync .mutex (steps [stopDispatchThread, withCzk CZookeeper.close])]

def close : Section :=
  .branch fun k => steps [.set (.closing k), optional (steps [.join (.shutdownThread k), mayRaise])]

/-- `reopen` makes the handle `h`. -/
def reopen : Section :=
  .branch fun h => steps [
    mayRaise,
    .sync .mutex (steps [setDefaultGlobalWatcher, CZookeeper.zkrbInit h,
      optional (withCzk CZookeeper.close), CZookeeper.waitUntilConnected h]),
    state]

/-- What a thread does with the client from outside. -/
def calls : Section :=
  .many (.rescue (.branch fun
    | 0 => operation
    | 1 => close
    | 2 => reopen
    | 3 => state
    | 4 => closed?
    | 5 => inquisitor
    | _ => setDefaultGlobalWatcher))

/-- A callback may do anything with the client. -/
def dispatchNextCallback : Section :=
  steps [either getCompletion getWatcher, calls, mayRaise]

def signalDispatchThreadExit : Section :=
  .sync .mutex .skip

def dispatcherBody : Section :=
  steps [.many (.rescue (steps [QueueWithPipe.pop, optional dispatchNextCallback])),
    signalDispatchThreadExit]

end ZookeeperBase

/-! ## The threads -/

/-- Any number of threads of each kind. -/
inductive Thread where
  | caller (i : ℕ)
  | dispatcher (i : ℕ)
  | shutdown (k : ℕ)
  | event (h : ℕ)
  | client (h : ℕ)
  deriving DecidableEq

def body : Thread → Section
  | .caller _ => ZookeeperBase.calls
  | .dispatcher _ => ZookeeperBase.dispatcherBody
  | .shutdown k => ZookeeperBase.shutdownThreadBody k
  | .event h => CZookeeper.eventThreadBody h
  | .client h => CZookeeper.clientThreadBody h

/-- The threads that others join. -/
def life : Thread → Option Lock
  | .caller _ | .dispatcher _ => none
  | .shutdown k => some (.shutdownThread k)
  | .event h => some (.eventThread h)
  | .client h => some (.clientThread h)

/-- The client and those who use it. -/
def client : System (State Lock Flag Thread) (Thread × ℕ) :=
  locking order.reentrant body life

/-- Nothing has been done. -/
def start : State Lock Flag Thread where
  held
    | .shutdownThread k => some (.shutdown k, 0)
    | .eventThread h => some (.event h, 0)
    | .clientThread h => some (.client h, 0)
    | _ => none
  flags _ := false
  thread t := ⟨none, .run (body t) :: (life t).toList.map .exit⟩

theorem init_start : client.Init start := by
  refine ⟨fun _ => rfl, fun _ => rfl, fun t l n => ?_⟩
  cases l <;> cases t <;> simp [start, life, eq_comm]

/-! ## The order of each method -/

variable {held : List Lock} {known : Set Flag} {h k n m : ℕ} {l : Lock} {c d : Section}

/-- All locks that are held come before those of this rank. -/
def Above (n : ℕ) (held : List Lock) : Prop :=
  ∀ m ∈ held, n < m.rank

theorem Above.nil : Above n [] :=
  List.forall_mem_nil _

theorem Above.cons (hl : n < l.rank) (hheld : Above n held) : Above n (l :: held) :=
  List.forall_mem_cons.mpr ⟨hl, hheld⟩

theorem Above.of_le (hheld : Above n held) (hm : m ≤ n) : Above m held :=
  fun l hl => lt_of_le_of_lt hm (hheld l hl)

@[simp]
theorem obeys_optional : (optional c).Obeys order held known ↔ c.Obeys order held known := by
  refine ⟨fun hc => hc 1, fun hc k => ?_⟩
  cases k with
  | zero => trivial
  | succ k => exact hc

@[simp]
theorem obeys_either : (either c d).Obeys order held known ↔
    c.Obeys order held known ∧ d.Obeys order held known := by
  refine ⟨fun hc => ⟨hc 0, hc 1⟩, fun hc k => ?_⟩
  cases k with
  | zero => exact hc.1
  | succ k => exact hc.2

/-- What may be left out sets no flag for certain. -/
@[simp]
theorem after_optional : (optional c).after known = known :=
  Set.Subset.antisymm (fun _ hf => hf 0) (Code.subset_after _ known)

@[simp]
theorem obeys_mayRaise : mayRaise.Obeys order held known :=
  obeys_optional.mpr trivial

@[simp]
theorem obeys_steps_nil : (steps []).Obeys order held known :=
  trivial

@[simp]
theorem obeys_steps_cons (cs : List Section) : (steps (c :: cs)).Obeys order held known ↔
    c.Obeys order held known ∧ (steps cs).Obeys order held (c.after known) :=
  Iff.rfl

/-- A lock is taken below those that are held. -/
theorem obeys_sync (hheld : Above l.rank held) (hneeds : l.needs = ∅)
    (hc : c.Obeys order (l :: held) known) : (Code.sync l c).Obeys order held known :=
  ⟨Or.inr ⟨hheld, hneeds.subset.trans (Set.empty_subset known)⟩, hc⟩

theorem QueueWithPipe.obeys_sync_skip (hheld : Above 0 held) :
    (Code.sync Lock.queueMutex .skip : Section).Obeys order held known :=
  obeys_sync hheld rfl trivial

/-- Who waits for an item has no lock. -/
theorem QueueWithPipe.obeys_pop : pop.Obeys order [] known := by
  simp only [pop, obeys_steps_cons, obeys_optional, obeys_mayRaise, obeys_steps_nil, and_true,
    true_and]
  refine ⟨obeys_sync_skip Above.nil, List.forall_mem_nil _, obeys_sync_skip Above.nil, trivial⟩

namespace CZookeeper

theorem obeys_closed (hheld : Above 3 held) : (closed? h).Obeys order held known :=
  obeys_sync hheld rfl trivial

theorem obeys_state (hheld : Above 3 held) : (state h).Obeys order held known := by
  simp only [state, obeys_steps_cons, obeys_optional, obeys_steps_nil, and_true]
  refine ⟨obeys_closed hheld, obeys_sync (hheld.of_le ?_) rfl obeys_mayRaise⟩
  show 2 ≤ 3
  omega

/-- The mutex that is given back is the only lock in the way of another thread. -/
theorem obeys_waitUntilRunning (hheld : Above 3 held) :
    (waitUntilRunning h).Obeys order held known := by
  refine obeys_sync hheld rfl (obeys_optional.mpr ⟨List.mem_cons_self, ?_, Set.empty_subset _⟩)
  intro m hm hne
  have hm' : m ∈ held := (List.mem_cons.mp hm).resolve_left hne
  exact ⟨hheld m hm', fun _ hx => by cases hx⟩

theorem obeys_waitUntilConnected (hheld : Above 3 held) :
    (waitUntilConnected h).Obeys order held known := by
  simp only [waitUntilConnected, obeys_steps_cons, obeys_optional, obeys_steps_nil, and_true]
  exact ⟨obeys_waitUntilRunning hheld, obeys_state hheld, obeys_state hheld⟩

theorem obeys_zkrbInit (hheld : Above 3 held) : (zkrbInit h).Obeys order held known := by
  simp only [zkrbInit, obeys_steps_cons, obeys_steps_nil, and_true]
  refine ⟨obeys_sync (hheld.of_le ?_) rfl obeys_mayRaise, obeys_sync hheld rfl trivial⟩
  show 2 ≤ 3
  omega

/-- The interpreter lock, and `zkrb_q_mutex` within. -/
theorem obeys_sync_gvl (hheld : Above 2 held)
    (hc : c.Obeys order (.zkrbQMutex :: .gvl :: held) known) :
    (Code.sync .gvl (steps [mayRaise, .sync .zkrbQMutex c])).Obeys order held known := by
  refine obeys_sync hheld rfl ⟨obeys_mayRaise, ?_, trivial⟩
  rw [mayRaise, after_optional]
  have hgvl : 0 < Lock.gvl.rank := Nat.succ_pos 1
  exact obeys_sync (Above.cons hgvl (hheld.of_le (Nat.zero_le 2))) rfl hc

/-- The event thread waits for what whoever joins it has done before. -/
theorem obeys_eventThreadBody : (eventThreadBody h).Obeys order [.eventThread h] known := by
  have hbelow : ∀ n < 4, Above n [.eventThread h] := fun n hn => Above.cons hn Above.nil
  have hiterate : (iterateEventDelivery h).Obeys order [.eventThread h] known := by
    refine ⟨⟨obeys_sync_gvl (hbelow 2 (by decide)) trivial, ?_, obeys_mayRaise, trivial⟩,
      obeys_mayRaise, trivial⟩
    refine obeys_optional.mpr (obeys_either.mpr ⟨trivial, ?_⟩)
    exact List.forall_mem_cons.mpr ⟨Or.inr rfl, List.forall_mem_nil _⟩
  refine ⟨obeys_sync (hbelow 3 (by decide)) rfl (obeys_optional.mpr ⟨List.mem_cons_self, ?_,
    Set.empty_subset _⟩), obeys_optional.mpr ?_, trivial⟩
  · intro m hm hne
    have hm' : m = .eventThread h :=
      List.mem_singleton.mp ((List.mem_cons.mp hm).resolve_left hne)
    rw [hm']
    refine ⟨Nat.lt_succ_self 3, ?_⟩
    rintro _ ⟨⟩
    exact Or.inl rfl
  · exact hiterate.mono (Code.subset_after _ known)

/-- `wake_event_loop!` comes before the event thread is joined. -/
theorem obeys_stopEventThread (hheld : Above 4 held) (hrunning : .running h ∈ known) :
    (stopEventThread h).Obeys order held known := by
  refine obeys_optional.mpr ⟨obeys_sync_gvl (hheld.of_le (by decide)) trivial,
    ⟨hheld, ?_⟩, trivial⟩
  have hafter : (wakeEventLoop h).after known = insert (.woken h) known := by
    show insert (.woken h) (mayRaise.after known) = insert (.woken h) known
    rw [mayRaise, after_optional]
  rw [hafter]
  rintro _ (rfl | rfl)
  · exact Set.mem_insert_of_mem _ hrunning
  · exact Set.mem_insert _ known

theorem obeys_closeHandle (hheld : Above 2 held) : (closeHandle h).Obeys order held known := by
  have hgvl : ∀ n < 2, Above n (.gvl :: held) := fun n hn =>
    Above.cons hn (hheld.of_le hn.le)
  refine obeys_sync hheld rfl ⟨obeys_mayRaise, trivial, ⟨hgvl 1 (by decide), ?_⟩,
    obeys_sync (hgvl 0 (by decide)) rfl trivial, trivial⟩
  rintro _ rfl
  exact Set.mem_insert _ _

theorem obeys_close (hheld : Above 4 held) (hrunning : .running h ∈ known) :
    (close h).Obeys order held known := by
  have hheld' : Above 3 held := hheld.of_le (by decide)
  refine ⟨obeys_closed hheld', obeys_optional.mpr ⟨?_, ?_, ?_, trivial⟩, trivial⟩
  · exact obeys_sync hheld' rfl trivial
  · exact obeys_stopEventThread hheld hrunning
  · refine obeys_sync hheld' rfl (obeys_optional.mpr (obeys_closeHandle ?_))
    exact Above.cons (Nat.lt_succ_self 2) (hheld'.of_le (by decide))

theorem obeys_clientThreadBody : (clientThreadBody h).Obeys order [.clientThread h] known := by
  have hcallback {known : Set Flag} : callback.Obeys order [.clientThread h] known :=
    obeys_sync (Above.cons Nat.one_pos Above.nil) rfl trivial
  refine ⟨hcallback, ?_, hcallback, trivial⟩
  exact List.forall_mem_cons.mpr ⟨rfl, List.forall_mem_nil _⟩

end CZookeeper

namespace ZookeeperBase

/-- `@mutex`, perhaps once more. -/
theorem obeys_sync_mutex (hheld : .mutex ∈ held ∨ Above 5 held)
    (hc : c.Obeys order (.mutex :: held) known) : (Code.sync .mutex c).Obeys order held known :=
  ⟨hheld.imp (fun hmem => ⟨trivial, hmem⟩) fun habove => ⟨habove, Set.empty_subset known⟩, hc⟩

theorem obeys_withCzk {c : ℕ → Section}
    (hc : ∀ h, (c h).Obeys order held (insert (.running h) known)) :
    (withCzk c).Obeys order held known := by
  intro k
  cases k with
  | zero => trivial
  | succ h => exact hc h

/-- The lock of the client is above those of a handle. -/
theorem above_mutex : Above 4 [.mutex] :=
  Above.cons (Nat.lt_succ_self 4) Above.nil

theorem obeys_closed : closed?.Obeys order [] known := by
  refine obeys_sync_mutex (Or.inr Above.nil) (obeys_optional.mpr (obeys_withCzk fun h => ?_))
  exact CZookeeper.obeys_closed (above_mutex.of_le (by decide))

theorem obeys_czk : czk.Obeys order [] known :=
  obeys_sync_mutex (Or.inr Above.nil) trivial

theorem obeys_state : state.Obeys order [] known := by
  refine ⟨obeys_closed, obeys_optional.mpr ⟨obeys_czk, obeys_withCzk fun h => ?_, trivial⟩, trivial⟩
  exact CZookeeper.obeys_state Above.nil

theorem obeys_inquisitor : inquisitor.Obeys order [] known := by
  refine obeys_sync_mutex (Or.inr Above.nil) (obeys_optional.mpr (obeys_withCzk fun h => ?_))
  exact CZookeeper.obeys_state (above_mutex.of_le (by decide))

theorem obeys_operation : operation.Obeys order [] known := by
  have hgvl {known : Set Flag} : (Code.sync Lock.gvl mayRaise).Obeys order [] known :=
    obeys_sync Above.nil rfl obeys_mayRaise
  refine ⟨obeys_mayRaise, ?_, ?_, obeys_czk, hgvl, ?_, hgvl, trivial⟩
  · exact ⟨obeys_state, obeys_mayRaise, obeys_inquisitor, obeys_mayRaise, trivial⟩
  · exact obeys_sync_mutex (Or.inr Above.nil) trivial
  · exact obeys_optional.mpr (List.forall_mem_nil _)

/-- The mutex is taken in `close` and once more here, and given back altogether by `wait`. -/
theorem obeys_stopDispatchThread :
    stopDispatchThread.Obeys order [.mutex, .shutdownThread k] known := by
  have hheld : Above 0 [.mutex, .mutex, .shutdownThread k] :=
    Above.cons (by decide) (Above.cons (by decide) (Above.cons (Nat.succ_pos 5) Above.nil))
  refine obeys_optional.mpr (obeys_sync_mutex (Or.inl List.mem_cons_self)
    ⟨QueueWithPipe.obeys_sync_skip hheld, ⟨List.mem_cons_self, ?_, Set.empty_subset _⟩, trivial⟩)
  intro m hm hne
  have hm' : m = .shutdownThread k := by simpa [hne] using hm
  rw [hm']
  exact ⟨Nat.lt_succ_self 5, fun _ hx => by cases hx⟩

theorem obeys_shutdownThreadBody :
    (shutdownThreadBody k).Obeys order [.shutdownThread k] known := by
  refine ⟨List.forall_mem_cons.mpr ⟨rfl, List.forall_mem_nil _⟩, ?_, trivial⟩
  refine obeys_sync_mutex (Or.inr (Above.cons (Nat.lt_succ_self 5) Above.nil))
    ⟨obeys_stopDispatchThread, obeys_withCzk fun h => ?_, trivial⟩
  refine CZookeeper.obeys_close (Above.cons (Nat.lt_succ_self 4) ?_) (Set.mem_insert _ _)
  exact Above.cons (by show 4 < 6; omega) Above.nil

/-- The thread of `close` is joined without a lock. -/
theorem obeys_close : close.Obeys order [] known := by
  intro k
  refine ⟨trivial, obeys_optional.mpr ⟨⟨Above.nil, ?_⟩, obeys_mayRaise, trivial⟩, trivial⟩
  rintro _ rfl
  exact Set.mem_insert _ known

theorem obeys_reopen : reopen.Obeys order [] known := by
  have habove : Above 3 [.mutex] := above_mutex.of_le (by decide)
  intro h
  refine ⟨obeys_mayRaise, obeys_sync_mutex (Or.inr Above.nil) ⟨?_, ?_, ?_, ?_, trivial⟩,
    obeys_state, trivial⟩
  · exact obeys_sync_mutex (Or.inl List.mem_cons_self) trivial
  · exact CZookeeper.obeys_zkrbInit habove
  · exact obeys_optional.mpr (obeys_withCzk fun h' =>
      CZookeeper.obeys_close above_mutex (Set.mem_insert _ _))
  · exact CZookeeper.obeys_waitUntilConnected habove

theorem obeys_calls : calls.Obeys order [] known := by
  intro way
  show Code.Obeys order (match way with
    | 0 => operation
    | 1 => close
    | 2 => reopen
    | 3 => state
    | 4 => closed?
    | 5 => inquisitor
    | _ => setDefaultGlobalWatcher) [] known
  split
  · exact obeys_operation
  · exact obeys_close
  · exact obeys_reopen
  · exact obeys_state
  · exact obeys_closed
  · exact obeys_inquisitor
  · exact obeys_sync_mutex (Or.inr Above.nil) trivial

/-- The dispatch thread calls back without a lock. -/
theorem obeys_dispatcherBody : dispatcherBody.Obeys order [] known := by
  have hget {known : Set Flag} : (Code.sync Lock.mutex .skip).Obeys order [] known :=
    obeys_sync_mutex (Or.inr Above.nil) trivial
  refine ⟨⟨QueueWithPipe.obeys_pop, obeys_optional.mpr ?_, trivial⟩, hget, trivial⟩
  exact ⟨obeys_either.mpr ⟨hget, hget⟩, obeys_calls, obeys_mayRaise, trivial⟩

end ZookeeperBase

theorem obeys_body (t : Thread) : (body t).Obeys order (life t).toList ∅ := by
  cases t with
  | caller i => exact ZookeeperBase.obeys_calls
  | dispatcher i => exact ZookeeperBase.obeys_dispatcherBody
  | shutdown k => exact ZookeeperBase.obeys_shutdownThreadBody
  | event h => exact CZookeeper.obeys_eventThreadBody
  | client h => exact CZookeeper.obeys_clientThreadBody

/-! ## The threads together -/

variable {s : State Lock Flag Thread} {t : Thread}

theorem lawful (hs : client.Reachable System.anyStep s) : Lawful order s :=
  lawful_of_reachable obeys_body hs

/-- **No deadlock.** In every run of any number of threads, through any number of handles that are
opened, closed and lost: a thread that has not ended and does not wait for an item, an event or an
answer can go on, or waits for a lock whose owner can go on, or waits for one, and so on. -/
theorem blocked_waits_for_runnable (hs : client.Reachable System.anyStep s) (hparked : ¬Parked s t)
    (hended : ¬Ended s t) :
    ∃ t', Relation.ReflTransGen (WaitsFor s) t t' ∧ CanStep order.reentrant s t' :=
  (lawful hs).waits_for_runnable hparked hended

/-- Two threads call `closed?`. -/
def contention : List (Thread × ℕ) :=
  [(.caller 0, 1), (.caller 0, 0), (.caller 0, 4), (.caller 0, 0), (.caller 1, 1), (.caller 1, 0),
    (.caller 1, 4)]

theorem blocked_waits_for_runnable_contention :
    ∃ t', Relation.ReflTransGen (WaitsFor (client.exec start contention)) (.caller 1) t' ∧
      CanStep order.reentrant (client.exec start contention) t' := by
  refine blocked_waits_for_runnable (System.Valid.reachable_exec init_start ?_) id fun hended => ?_
  · exact ⟨trivial, trivial, trivial, trivial, trivial, trivial, Or.inl rfl, trivial, trivial,
      trivial, trivial, trivial, trivial, trivial, trivial⟩
  · cases hended.2

/-- **Nothing is held in a long wait.** A thread that waits for an item, an event, an answer or the
start of something has no mutex and not the interpreter lock. Whoever joins it has yet to do what
it waits for. -/
theorem holds_nothing_while_parked (hs : client.Reachable System.anyStep s) (hparked : Parked s t)
    (hl : s.held l = some (t, n)) :
    (∃ k, l = .shutdownThread k ∧ s.flags (.closing k) = false) ∨
      (∃ h, l = .eventThread h ∧
        (s.flags (.running h) = false ∨ s.flags (.woken h) = false)) ∨
      ∃ h, l = .clientThread h ∧ s.flags (.zkClosing h) = false := by
  obtain ⟨f, hf, hunset⟩ := (lawful hs).needs_of_parked hparked hl
  cases l with
  | shutdownThread k =>
    obtain rfl : f = .closing k := hf
    exact Or.inl ⟨k, rfl, hunset⟩
  | eventThread h =>
    obtain rfl | rfl : f = .running h ∨ f = .woken h := hf
    · exact Or.inr (Or.inl ⟨h, rfl, Or.inl hunset⟩)
    · exact Or.inr (Or.inl ⟨h, rfl, Or.inr hunset⟩)
  | clientThread h =>
    obtain rfl : f = .zkClosing h := hf
    exact Or.inr (Or.inr ⟨h, rfl, hunset⟩)
  | mutex | startStopMutex h | gvl | queueMutex | zkrbQMutex => cases hf

/-- An event thread waits until its handle is running. -/
def unstarted : List (Thread × ℕ) :=
  [(.event 0, 0), (.event 0, 0), (.event 0, 1), (.event 0, 0)]

theorem holds_nothing_while_parked_unstarted :
    (∃ k, Lock.eventThread 0 = .shutdownThread k ∧
        (client.exec start unstarted).flags (.closing k) = false) ∨
      (∃ h, Lock.eventThread 0 = .eventThread h ∧
        ((client.exec start unstarted).flags (.running h) = false ∨
          (client.exec start unstarted).flags (.woken h) = false)) ∨
      ∃ h, Lock.eventThread 0 = .clientThread h ∧
        (client.exec start unstarted).flags (.zkClosing h) = false := by
  refine holds_nothing_while_parked (System.Valid.reachable_exec init_start ?_)
    (show Parked (client.exec start unstarted) (.event 0) from ⟨.running 0, rfl, rfl⟩) rfl
  exact ⟨trivial, trivial, Or.inl rfl, trivial, trivial, trivial, trivial, trivial, trivial⟩

end Locks

end ZookeeperClient
