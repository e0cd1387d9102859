import ZookeeperClient.Ext.CallMemory
import ZookeeperClient.Ext.EventList

/-!
# Who owns which block

One `CZookeeper` with the blocks that its methods and callbacks allocate, and the structure of the
instance, in a run where methods called from any number of threads, the callbacks of the C client,
the event thread, `close_handle` and the finalizer take turns. A method takes two steps, since
others may run during its call. The nodes of the queue are in `Ext.EventList`. The memory of the C
client, with the `zhandle_t`, is not here: that a call may use the handle after `close_handle` is
the subject of `Ext.HandleUse`.

The ledger says what every block is for. It is another transition system, without memory, and the
memory follows it step by step: after each step exactly the blocks of the ledger are allocated. So
none of them is used after it has been freed or freed twice, and what the ledger counts as lost is
what leaks.

The C client keeps a context from the call that hands it over until it calls back, which it does
at most once with a completion, and at most once with a watch event other than one about the
session, or until it drops the context without a word. What it does within `zookeeper_close` are
steps before `close_handle`.

## Main definitions

- `Instance`, `Instance.step` — the memory and the steps
- `Ledger`, `Ledger.next` — what each block is for
- `Owns` — exactly the blocks of the ledger are allocated

## Main results

- `owns_step` — a step comes to no fault, and the ledger follows
-/

namespace ZookeeperClient

namespace Marshal

namespace EventMemory

open Memory
open scoped Pointwise

/-! ## The instance -/

/-- A method during its call: its pointers, and whether the call is synchronous. -/
structure RunningCall where
  method : MethodCall
  temps : Temps
  isSync : Bool

/-- `struct zkrb_instance_data` with the memory behind it, and who else has pointers to it. -/
structure Instance where
  arena : Arena Cell
  /-- The block of the structure itself. -/
  block : ℕ
  /-- `ptr->queue`, `none` for `NULL`, and the address that its next node gets. -/
  queue : Option (ZkrbQueue ℕ ℕ)
  nextNode : ℕ
  /-- The context of the session, while `ptr->zh` is not `NULL`. -/
  zh : Option ℕ
  /-- The contexts that the C client holds. -/
  completions : List ℕ
  watches : List ℕ
  calls : List RunningCall
  /-- What `get_next_event` has returned. -/
  returned : List RawHash

/-- A step of the instance. -/
inductive MemoryAct where
  /-- A method begins. -/
  | call (m : MethodCall)
  /-- A method goes on after its call. -/
  | ret (i : ℕ) (reply : Reply)
  /-- The C client calls a completion function. -/
  | complete (i : ℕ) (inv : Invocation)
  /-- The C client calls the watcher of the session. -/
  | sessionEvent (state : ℤ) (path : CString)
  /-- The C client calls another watcher. -/
  | watchEvent (i : ℕ) (type state : ℤ) (path : CString)
  | getNextEvent
  | closeHandle
  /-- The C client drops a context with which it will not call a completion function: it has
  refused the call. -/
  | dropCompletion (i : ℕ)
  /-- The C client drops a context with which it will not call a watcher: it has refused the call,
  the watch has not been installed, or `zookeeper_close` has found it unfired. -/
  | dropWatch (i : ℕ)
  /-- The instance is collected as garbage. -/
  | finalize

namespace Instance

-- `junk` is what the node at an address contains at first
variable (h : CHandle) (env : Allocators) (junk : ℕ → ZkrbEventLl ℕ ℕ)

/-- The handle, as the methods find it. -/
def handle (s : Instance) : CHandle :=
  { h with isOpen := s.zh.isSome }

/-- `method_zkrb_init`: without a handle, it raises an exception, and only the finalizer has the
instance. `Data_Make_Struct` allocates the structure. -/
def zkrbInit (isInit : Bool) : Option Instance := do
  let (block, arena) ← Prog.alloc .instanceData Arena.empty
  let queue ← ZkrbQueue.zkrbQueueAlloc 0 (junk 0) fun _ => none
  let (ctx, arena) ← Prog.alloc (.context ⟨ZKRB_GLOBAL_REQ⟩) arena
  return { arena := arena, block := block, queue := some queue, nextNode := 1,
           zh := if isInit then some ctx else none,
           completions := [], watches := [], calls := [], returned := [] }

/-- A callback: the event is made, and enqueued in the queue of the context. -/
def callback (s : Instance) (ctx : ℕ) (inv : Invocation) : Option Instance := do
  let (event, arena) ← onHeap env ctx inv s.arena
  let queue ← s.queue
  let queue ← queue.zkrbEnqueue event s.nextNode (junk s.nextNode)
  return { s with arena := arena, queue := some queue, nextNode := s.nextNode + 1 }

/-- `method_get_next_event`, as far as it does not wait. -/
def getNextEvent (s : Instance) : Option Instance :=
  match s.zh, s.queue with
  | some _, some queue => do
    match ← queue.zkrbDequeue with
    | (none, _) => return s
    | (some event, queue) =>
      let (hash, arena) ← zkrbEventToRuby event s.arena
      let ((), arena) ← zkrbEventFree event arena
      return { s with arena := arena, queue := some queue, returned := s.returned ++ [hash] }
  -- `FETCH_DATA_PTR` raises an exception
  | _, _ => some s

/-- The loop of `zkrb_queue_free`. -/
def freeEvents : ℕ → ZkrbQueue ℕ ℕ → Arena Cell → Option (ZkrbQueue ℕ ℕ × Arena Cell)
  | 0, _, _ => none
  | fuel + 1, queue, arena => do
    match ← queue.zkrbDequeue with
    | (none, queue) => return (queue, arena)
    | (some event, queue) =>
      let ((), arena) ← zkrbEventFree event arena
      freeEvents fuel queue arena

/-- `zkrb_queue_free`. -/
def queueFree (s : Instance) : Option Instance :=
  match s.queue with
  | none => some s
  | some queue => do
    let (queue, arena) ← freeEvents s.nextNode queue s.arena
    let _ ← queue.nodes.freePtr queue.head
    return { s with arena := arena, queue := none }

/-- The context that `zoo_get_context` has returned is freed, after `zookeeper_close`. -/
def freeContext (s : Instance) : Option Instance :=
  match s.zh with
  | none => some s
  | some ctx => do
    let ((), arena) ← Prog.free ctx s.arena
    return { s with arena := arena, zh := none }

/-- `destroy_zkrb_instance`. Nobody frees the structure: `free_zkrb_instance_data` only calls
this. -/
def destroy (s : Instance) : Option Instance := do
  let s ← s.freeContext
  s.queueFree

def step (s : Instance) : MemoryAct → Option Instance
  | .call m => do
    let (r, arena) ← (m.enter (s.handle h) env).run s.arena
    match r with
    | .error _ => return { s with arena := arena }
    | .ok frame =>
      return { s with
        arena := arena
        completions := s.completions ++ frame.callback.toList
        watches := s.watches ++ frame.watch.toList
        calls := s.calls ++ [⟨m, frame.temps, frame.isSync⟩] }
  | .ret i reply =>
    match s.calls[i]? with
    | none => some s
    | some c => do
      let ((), arena) ← c.method.leave c.temps c.isSync reply s.arena
      return { s with arena := arena, calls := s.calls.eraseIdx i }
  | .complete i inv =>
    match s.completions[i]? with
    | none => some s
    | some ctx => do
      let s ← s.callback env junk ctx inv
      return { s with completions := s.completions.eraseIdx i }
  | .sessionEvent state path =>
    match s.zh with
    | none => some s
    | some ctx => s.callback env junk ctx (.state ZOO_SESSION_EVENT state path)
  | .watchEvent i type state path =>
    match s.watches[i]? with
    | none => some s
    | some ctx => do
      let s ← s.callback env junk ctx (.state type state path)
      return if type = ZOO_SESSION_EVENT then s else { s with watches := s.watches.eraseIdx i }
  | .getNextEvent => s.getNextEvent
  | .closeHandle => if s.zh.isSome then s.destroy else some s
  | .dropCompletion i => some { s with completions := s.completions.eraseIdx i }
  | .dropWatch i => some { s with watches := s.watches.eraseIdx i }
  | .finalize => s.destroy

end Instance

/-! ## The ledger -/

/-- A method during its call, with the vector of ACLs that it has made. -/
structure LedgerCall where
  method : MethodCall
  isSync : Bool
  acl : Option (CVector StructACL)

/-- What the blocks are for. -/
structure Ledger where
  /-- There is a context for the session. -/
  isOpen : Bool
  completions : List CallingContext
  watches : List CallingContext
  calls : List LedgerCall
  /-- The events in the queue, by the callbacks that made them. -/
  events : List (CallingContext × Invocation)
  returned : List RawHash
  lost : List Lost
  /-- All callbacks so far. -/
  reported : List (CallingContext × Invocation)

/-- What an event loses when it is freed. -/
def lostWith (event : CallingContext × Invocation) : List Lost :=
  if leakedPointers event.2 = 0 then [] else [.pointers (leakedPointers event.2)]

/-- The hash that the event should become. -/
def hashOf (event : CallingContext × Invocation) : RawHash :=
  ZookeeperClient.zkrbEventToRuby (event.2.event event.1.reqId)

namespace Ledger

variable (h : CHandle) (env : Allocators)

def init (isInit : Bool) : Ledger where
  isOpen := isInit
  completions := []
  watches := []
  calls := []
  events := []
  returned := []
  lost := if isInit then [] else [.context ⟨ZKRB_GLOBAL_REQ⟩]
  reported := []

/-- A callback has been called. -/
def callback (l : Ledger) (ctx : CallingContext) (inv : Invocation) : Ledger :=
  { l with events := l.events ++ [(ctx, inv)], reported := l.reported ++ [(ctx, inv)] }

def destroy (l : Ledger) : Ledger :=
  { l with isOpen := false, events := [], lost := l.lost ++ l.events.flatMap lostWith }

/-- The step of the ledger. If a method raises an exception, `raised` is left behind. -/
def next (raised : List Lost) (l : Ledger) : MemoryAct → Ledger
  | .call m =>
    match m.args { h with isOpen := l.isOpen } env with
    | .error _ => { l with lost := l.lost ++ raised }
    | .ok args =>
      { l with
        completions := l.completions ++ args.callback.toList
        watches := l.watches ++ args.watch.toList
        calls := l.calls ++ [⟨m, args.callback.isNone, args.acl.join⟩] }
  | .ret i reply =>
    match l.calls[i]? with
    | none => l
    | some c =>
      { l with
        calls := l.calls.eraseIdx i
        lost := l.lost ++ c.method.left c.isSync reply }
  | .complete i inv =>
    match l.completions[i]? with
    | none => l
    | some ctx =>
      { l.callback ctx inv with
        completions := l.completions.eraseIdx i
        lost := l.lost ++ if frees ctx inv then [] else [.context ctx] }
  | .sessionEvent state path =>
    if l.isOpen then l.callback ⟨ZKRB_GLOBAL_REQ⟩ (.state ZOO_SESSION_EVENT state path) else l
  | .watchEvent i type state path =>
    match l.watches[i]? with
    | none => l
    | some ctx =>
      let l' := l.callback ctx (.state type state path)
      if type = ZOO_SESSION_EVENT then l' else { l' with watches := l.watches.eraseIdx i }
  | .getNextEvent =>
    match l.events with
    | [] => l
    | event :: events =>
      if l.isOpen then
        { l with
          events := events
          returned := l.returned ++ [hashOf event]
          lost := l.lost ++ lostWith event }
      else l
  | .closeHandle => if l.isOpen then l.destroy else l
  | .dropCompletion i =>
    match l.completions[i]? with
    | none => l
    | some ctx =>
      { l with completions := l.completions.eraseIdx i, lost := l.lost ++ [.context ctx] }
  | .dropWatch i =>
    match l.watches[i]? with
    | none => l
    | some ctx => { l with watches := l.watches.eraseIdx i, lost := l.lost ++ [.context ctx] }
  | .finalize => l.destroy

end Ledger

/-! ## Ownership -/

/-- The event of a callback. -/
def queuedAt (p : ℕ) (event : CallingContext × Invocation) : Assertion Cell :=
  eventAt p (made event.1 event.2)

/-- The memory of a running call. -/
def callAt (c : RunningCall) (lc : LedgerCall) : Assertion Cell :=
  fact (c.method = lc.method ∧ c.isSync = lc.isSync ∧ lc.method.Uses c.temps ∧ Counted lc.acl) +
    tempsAt c.temps lc.acl

def instanceAt (p : ℕ) : Assertion Cell :=
  pointsTo p .instanceData

/-- The structure, and the context of the session. -/
def sessionAt (block : ℕ) : Option ℕ → Assertion Cell
  | none => instanceAt block
  | some p => instanceAt block + contextAt p ⟨ZKRB_GLOBAL_REQ⟩

/-- Every block of the ledger. -/
def ledgerAt (s : Instance) (events : List ℕ) (l : Ledger) : Assertion Cell :=
  sessionAt s.block s.zh + listAt contextAt s.completions l.completions +
    listAt contextAt s.watches l.watches + listAt callAt s.calls l.calls +
      listAt queuedAt events l.events + Lost.all l.lost

/-- The queue holds these events, and its next node is a new one. -/
structure QueueHolds (q : ZkrbQueue ℕ ℕ) (nextNode : ℕ) (events : List ℕ) : Prop where
  lists : ∃ cells t, q.Lists (fun _ => none) cells t events
  lt_next : events.length < nextNode
  fresh : ∀ a, nextNode ≤ a → q.nodes a = none

/-- **Exactly** the blocks of the ledger are allocated. -/
structure Owns (s : Instance) (l : Ledger) : Prop where
  isOpen : s.zh.isSome = l.isOpen
  returned : s.returned = l.returned
  /-- There is a queue while there is a handle. -/
  queue : s.queue = none → s.zh = none
  blocks : ∃ events, s.arena.Sat (ledgerAt s events l) ∧
    (∀ q, s.queue = some q → QueueHolds q s.nextNode events) ∧ (s.queue = none → events = [])

/-! ## The queue -/

namespace QueueHolds

variable {q : ZkrbQueue ℕ ℕ} {n event : ℕ} {events : List ℕ}

theorem of_alloc {junk : ZkrbEventLl ℕ ℕ}
    (hq : ZkrbQueue.zkrbQueueAlloc 0 junk (fun _ => none) = some q) : QueueHolds q 1 [] where
  lists := ⟨[], 0, ZkrbQueue.Lists.of_alloc rfl hq⟩
  lt_next := Nat.one_pos
  fresh a ha := by
    rw [ZkrbQueue.Lists.zkrbQueueAlloc_eq] at hq
    obtain rfl := Option.some.inj hq
    have hne : a ≠ 0 := by omega
    simp [hne]

theorem enqueue (h : QueueHolds q n events) (junk : ZkrbEventLl ℕ ℕ) (event : ℕ) :
    ∃ q', q.zkrbEnqueue event n junk = some q' ∧ QueueHolds q' (n + 1) (events ++ [event]) := by
  obtain ⟨cells, t, hlists⟩ := h.lists
  have hfresh := h.fresh n le_rfl
  obtain ⟨q', heq, hq'⟩ := hlists.enqueue event junk hfresh
  obtain ⟨q'', heq', -, -, -, -, hframe⟩ := hlists.zkrbEnqueue_eq event junk hfresh
  obtain rfl := Option.some.inj (heq'.symm.trans heq)
  refine ⟨q'', heq, ⟨_, _, hq'⟩, ?_, fun a ha => ?_⟩
  · have hlt := h.lt_next
    rw [List.length_append, List.length_singleton]
    omega
  · have hnone := h.fresh a (by omega)
    rw [hframe a ?_ (by omega), hnone]
    rintro rfl
    rw [hlists.tail_eq] at hnone
    cases hnone

theorem dequeue_nil (h : QueueHolds q n []) : q.zkrbDequeue = some (none, q) := by
  obtain ⟨cells, t, hlists⟩ := h.lists
  exact hlists.dequeue_nil

theorem dequeue_cons (h : QueueHolds q n (event :: events)) :
    ∃ q', q.zkrbDequeue = some (some event, q') ∧ QueueHolds q' n events := by
  obtain ⟨cells, t, hlists⟩ := h.lists
  obtain ⟨a, next, cells', rfl⟩ := hlists.exists_cons
  obtain ⟨q', heq, hq', hnodes⟩ := hlists.dequeue_cons
  refine ⟨q', heq, ⟨cells', t, hq'⟩, ?_, fun b hb => ?_⟩
  · exact Nat.lt_of_succ_lt h.lt_next
  · rw [hnodes]
    by_cases hba : b = a
    · rw [hba, Function.update_self]
    · rw [Function.update_of_ne hba, h.fresh b hb]

/-- The last node of an empty queue can be freed. -/
theorem freePtr_head (h : QueueHolds q n []) : ∃ nodes, q.nodes.freePtr q.head = some nodes := by
  obtain ⟨cells, t, hlists⟩ := h.lists
  obtain rfl : cells = [] := by simpa using hlists.events
  rw [hlists.head_eq]
  exact ⟨_, Heap.free_eq hlists.tail_eq⟩

end QueueHolds

/-! ## Steps -/

/-- An array is as long as what it stands for. -/
theorem length_of_sat {κ α : Type} {E : κ → α → Assertion Cell} {cs : List κ} {as : List α}
    {R : Assertion Cell} {m : Arena Cell} (h : m.Sat (listAt E cs as + R)) :
    cs.length = as.length := by
  obtain ⟨_, ⟨own, hown, rest, hrest, rfl⟩, -⟩ := h
  exact length_of_mem_listAt hown

/-- What is left of an event that is freed. -/
theorem all_lostWith (event : CallingContext × Invocation) :
    Lost.all (lostWith event) = stringVec.dangling (leakedPointers event.2) := by
  unfold lostWith
  split
  · next hzero =>
    rw [hzero]
    rfl
  · exact add_zero _

theorem freeEvent_triple (p : ℕ) (event : CallingContext × Invocation) :
    Triple (queuedAt p event) (zkrbEventFree p) fun _ => Lost.all (lostWith event) := by
  refine (zkrbEventFree_triple (wellFormed_made event.1 event.2) p).post fun _ => ?_
  rw [leftover_made, all_lostWith]

/-- `zkrb_event_to_ruby` of an event in the queue. -/
theorem readEvent_triple (env : Allocators) (p : ℕ) (event : CallingContext × Invocation) :
    Reads (queuedAt p event) (zkrbEventToRuby p) (hashOf event) := by
  have hhash := zkrbEventToRuby_run env event.1 event.2
  rw [run_eq] at hhash
  exact reads_zkrbEventToRuby (wellFormed_made event.1 event.2) hhash p

namespace Instance

variable {s : Instance} {q : ZkrbQueue ℕ ℕ} {events : List ℕ} {R : Assertion Cell}

/-- **A callback**: the new event is the last one of the queue. -/
theorem callback_eq (env : Allocators) (junk : ℕ → ZkrbEventLl ℕ ℕ)
    (hqueue : s.queue = some q) (hq : QueueHolds q s.nextNode events) {p : ℕ}
    {ctx : CallingContext} {reported : List (CallingContext × Invocation)}
    (hm : s.arena.Sat (contextAt p ctx + (listAt queuedAt events reported + R)))
    (inv : Invocation) :
    ∃ event q' arena, s.callback env junk p inv =
        some { s with arena := arena, queue := some q', nextNode := s.nextNode + 1 } ∧
      QueueHolds q' (s.nextNode + 1) (events ++ [event]) ∧
      arena.Sat (keptContext (frees ctx inv) p ctx +
        (listAt queuedAt (events ++ [event]) (reported ++ [(ctx, inv)]) + R)) := by
  have hlen := length_of_sat (hm.of_eq (add_left_comm _ _ _))
  obtain ⟨event, arena, hrun, harena⟩ := (onHeap_triple env p ctx inv).run _ hm rfl
  obtain ⟨q', henqueue, hq'⟩ := hq.enqueue (junk s.nextNode) event
  refine ⟨event, q', arena, ?_, hq', harena.of_eq ?_⟩
  · unfold callback
    rw [hrun, hqueue]
    simp only [Option.bind_eq_bind, Option.bind_some, henqueue]
    rfl
  · rw [listAt_append hlen, listAt_cons, listAt_nil]
    show queuedAt event (ctx, inv) + _ + _ = _
    abel

/-- **The loop of `zkrb_queue_free`** frees every event. -/
theorem freeEvents_eq {n fuel : ℕ} {reported : List (CallingContext × Invocation)}
    {arena : Arena Cell} (hfuel : events.length < fuel) (hq : QueueHolds q n events)
    (hm : arena.Sat (listAt queuedAt events reported + R)) :
    ∃ q' arena', freeEvents fuel q arena = some (q', arena') ∧ QueueHolds q' n [] ∧
      arena'.Sat (Lost.all (reported.flatMap lostWith) + R) := by
  induction events generalizing fuel q arena reported R with
  | nil =>
    obtain ⟨k, rfl⟩ := Nat.exists_eq_add_one_of_ne_zero (by omega : fuel ≠ 0)
    obtain rfl : reported = [] := List.eq_nil_of_length_eq_zero (length_of_sat hm).symm
    refine ⟨q, arena, ?_, hq, hm⟩
    rw [freeEvents, hq.dequeue_nil]
    rfl
  | cons event events ih =>
    obtain ⟨k, rfl⟩ := Nat.exists_eq_add_one_of_ne_zero (by omega : fuel ≠ 0)
    cases reported with
    | nil => exact absurd (length_of_sat hm) (by simp)
    | cons inv reported =>
      obtain ⟨q', hdequeue, hq'⟩ := hq.dequeue_cons
      obtain ⟨_, arena', hrun, harena'⟩ := (freeEvent_triple event inv).run
        (listAt queuedAt events reported + R) hm (add_assoc _ _ _)
      obtain ⟨q'', arena'', hloop, hq'', harena''⟩ :=
        ih (by simpa using hfuel) hq' (harena'.of_eq (add_left_comm _ _ _))
      refine ⟨q'', arena'', ?_, hq'', ?_⟩
      · rw [freeEvents, hdequeue]
        simp only [Option.bind_eq_bind, Option.bind_some, hrun]
        exact hloop
      · rw [List.flatMap_cons, Lost.all_append, add_assoc]
        exact harena''.of_eq (add_left_comm _ _ _)

end Instance

/-- The lists of the ledger are as long as those of the instance. -/
theorem lengths_of_sat {s : Instance} {l : Ledger} {events : List ℕ}
    (hm : s.arena.Sat (ledgerAt s events l)) :
    s.completions.length = l.completions.length ∧ s.watches.length = l.watches.length ∧
      s.calls.length = l.calls.length ∧ events.length = l.events.length := by
  obtain ⟨_, ⟨_, ⟨_, ⟨_, ⟨_, ⟨_, -, _, hcompletions, rfl⟩, _, hwatches, rfl⟩, _, hcalls, rfl⟩, _,
    hevents, rfl⟩, -, -, rfl⟩, -⟩ := hm
  exact ⟨length_of_mem_listAt hcompletions, length_of_mem_listAt hwatches,
    length_of_mem_listAt hcalls, length_of_mem_listAt hevents⟩

theorem leaveCall_triple (c : RunningCall) (lc : LedgerCall) (reply : Reply) :
    Triple (callAt c lc) (c.method.leave c.temps c.isSync reply)
      fun _ => Lost.all (lc.method.left lc.isSync reply) := by
  refine Triple.of_fact fun hcall => ?_
  obtain ⟨hmethod, hsync, huses, hacl⟩ := hcall
  rw [hmethod, hsync]
  exact leave_triple huses hacl lc.isSync reply

theorem ptrAt_eq_listAt {α : Type} (A : ℕ → α → Assertion Cell) (p : Option ℕ) (a : Option α) :
    ptrAt A p a = listAt A p.toList a.toList := by
  cases p with
  | none => cases a <;> rfl
  | some p =>
    cases a with
    | none => rfl
    | some a => exact (add_zero (A p a)).symm

theorem isNone_eq_of_mem_ptrAt {α : Type} {A : ℕ → α → Assertion Cell} {p : Option ℕ}
    {a : Option α} {own : Multiset (ℕ × Cell)} (h : own ∈ ptrAt A p a) : p.isNone = a.isNone := by
  cases p with
  | none =>
    cases a with
    | none => rfl
    | some a => cases h
  | some p =>
    cases a with
    | none => cases h
    | some a => rfl

/-- A method that has entered its call runs, and the C client has its contexts. -/
theorem frameAt_subset (m : MethodCall) (frame : Frame) (args : ZooArgs) :
    frameAt m frame args ⊆ listAt contextAt frame.callback.toList args.callback.toList +
      listAt contextAt frame.watch.toList args.watch.toList +
        listAt callAt [⟨m, frame.temps, frame.isSync⟩]
          [⟨m, args.callback.isNone, args.acl.join⟩] := by
  rintro _ ⟨_, ⟨own, hcallback, own', hwatch, rfl⟩, own'', htemps, rfl⟩
  obtain ⟨⟨huses, hacl⟩, htemps⟩ := mem_fact_add.mp htemps
  have hsync : frame.isSync = args.callback.isNone := isNone_eq_of_mem_ptrAt hcallback
  rw [ptrAt_eq_listAt] at hcallback hwatch
  refine Set.add_mem_add (Set.add_mem_add hcallback hwatch) ?_
  rw [listAt_cons, listAt_nil, add_zero]
  exact mem_fact_add.mpr ⟨⟨rfl, hsync, huses, hacl⟩, htemps⟩

/-- What a callback has not freed of a context is in the session's or lost. -/
theorem keptContext_subset (freed : Bool) (p : ℕ) (ctx : CallingContext) :
    keptContext freed p ctx ⊆ Lost.all (if freed then [] else [.context ctx]) := by
  cases freed with
  | true => exact subset_rfl
  | false =>
    show contextAt p ctx ⊆ (⋃ p, contextAt p ctx) + 0
    rw [add_zero]
    exact Set.subset_iUnion (fun p => contextAt p ctx) p

/-- A context that nobody has any more is lost. -/
theorem sat_lost {m : Arena Cell} {p : ℕ} {ctx : CallingContext} {R : Assertion Cell}
    {lost : List Lost} (hm : m.Sat (contextAt p ctx + (R + Lost.all lost))) :
    m.Sat (R + Lost.all (lost ++ [.context ctx])) := by
  refine hm.mono ((Set.add_subset_add_right (keptContext_subset false p ctx)).trans ?_)
  rw [if_neg Bool.false_ne_true, Lost.all_append]
  refine Eq.subset ?_
  abel

namespace Owns

variable {s : Instance} {l : Ledger}

theorem zkrbInit (junk : ℕ → ZkrbEventLl ℕ ℕ) (isInit : Bool) :
    ∃ s, Instance.zkrbInit junk isInit = some s ∧ Owns s (Ledger.init isInit) := by
  have hempty : (Arena.empty : Arena Cell).Sat 0 := ⟨0, rfl, .empty⟩
  obtain ⟨block, arena₁, hmake, harena₁⟩ :=
    (Triple.alloc Cell.instanceData).run 0 hempty (add_zero 0).symm
  obtain ⟨ctx, arena, halloc, harena⟩ :=
    (Triple.alloc (Cell.context ⟨ZKRB_GLOBAL_REQ⟩)).run (instanceAt block)
      (harena₁.of_eq (add_zero _)) (zero_add _).symm
  obtain ⟨q, hq⟩ : ∃ q, ZkrbQueue.zkrbQueueAlloc 0 (junk 0) (fun _ => none) = some q :=
    ⟨_, ZkrbQueue.Lists.zkrbQueueAlloc_eq 0 (junk 0) _⟩
  refine ⟨⟨arena, block, some q, 1, if isInit then some ctx else none, [], [], [], []⟩, ?_, ?_⟩
  · unfold Instance.zkrbInit
    rw [hmake]
    simp only [Option.bind_eq_bind, Option.bind_some, hq, halloc]
    rfl
  · refine ⟨by cases isInit <;> rfl, rfl, nofun, [], harena.mono ?_, ?_, nofun⟩
    · cases isInit with
      | true =>
        show _ ⊆ instanceAt block + contextAt ctx ⟨ZKRB_GLOBAL_REQ⟩ + 0 + 0 + 0 + 0 + 0
        simp only [add_zero]
        exact (add_comm _ _).subset
      | false =>
        show _ ⊆ instanceAt block + 0 + 0 + 0 + 0 + ((⋃ p, contextAt p ⟨ZKRB_GLOBAL_REQ⟩) + 0)
        simp only [add_zero]
        rw [add_comm (instanceAt block)]
        exact Set.add_subset_add_right
          (Set.subset_iUnion (fun p => contextAt p ⟨ZKRB_GLOBAL_REQ⟩) ctx)
    · rintro _ ⟨⟩
      exact QueueHolds.of_alloc hq

theorem exists_queue (hs : Owns s l) (hopen : s.zh.isSome) : ∃ q, s.queue = some q := by
  refine Option.ne_none_iff_exists'.mp fun hnone => ?_
  rw [hs.queue hnone] at hopen
  cases hopen

variable (h : CHandle) (env : Allocators) (junk : ℕ → ZkrbEventLl ℕ ℕ)

/-- A completion function is called. -/
theorem complete (hs : Owns s l) (hopen : s.zh.isSome) (i : ℕ) (inv : Invocation) :
    ∃ s', s.step h env junk (.complete i inv) = some s' ∧
      Owns s' (l.next h env [] (.complete i inv)) := by
  obtain ⟨q, hqueue⟩ := hs.exists_queue hopen
  obtain ⟨events, hm, hevents, -⟩ := hs.blocks
  obtain ⟨hlen, -, -, -⟩ := lengths_of_sat hm
  simp only [Instance.step, Ledger.next]
  by_cases hi : i < s.completions.length
  · have hi' : i < l.completions.length := hlen ▸ hi
    have hledger : ledgerAt s events l = contextAt s.completions[i] l.completions[i] +
        (listAt queuedAt events l.events + (sessionAt s.block s.zh +
          listAt contextAt (s.completions.eraseIdx i) (l.completions.eraseIdx i) +
          listAt contextAt s.watches l.watches + listAt callAt s.calls l.calls +
          Lost.all l.lost)) := by
      rw [ledgerAt, listAt_eraseIdx hlen hi hi']
      abel
    obtain ⟨event, q', arena, hcallback, hq', harena⟩ :=
      Instance.callback_eq env junk hqueue (hevents q hqueue) (hm.of_eq hledger) inv
    simp only [List.getElem?_eq_getElem hi, List.getElem?_eq_getElem hi', Option.bind_eq_bind,
      hcallback, Option.bind_some]
    refine ⟨_, rfl, hs.isOpen, hs.returned, nofun, events ++ [event],
      harena.mono ((Set.add_subset_add_right (keptContext_subset _ _ _)).trans ?_), ?_, nofun⟩
    · unfold ledgerAt Ledger.callback
      rw [Lost.all_append]
      refine Eq.subset ?_
      abel
    · rintro q ⟨⟩
      exact hq'
  · simp only [List.getElem?_eq_none (Nat.le_of_not_lt hi),
      List.getElem?_eq_none (hlen ▸ Nat.le_of_not_lt hi)]
    exact ⟨s, rfl, hs⟩

/-- The watcher of the session is called. -/
theorem sessionEvent (hs : Owns s l) (state : ℤ) (path : CString) :
    ∃ s', s.step h env junk (.sessionEvent state path) = some s' ∧
      Owns s' (l.next h env [] (.sessionEvent state path)) := by
  simp only [Instance.step, Ledger.next]
  have hopen := hs.isOpen
  cases hzh : s.zh with
  | none =>
    rw [hzh] at hopen
    rw [← hopen]
    exact ⟨s, rfl, hs⟩
  | some ctx =>
    obtain ⟨q, hqueue⟩ := hs.exists_queue (by rw [hzh]; rfl)
    obtain ⟨events, hm, hevents, -⟩ := hs.blocks
    have hledger : ledgerAt s events l = contextAt ctx ⟨ZKRB_GLOBAL_REQ⟩ +
        (listAt queuedAt events l.events + (instanceAt s.block +
          listAt contextAt s.completions l.completions + listAt contextAt s.watches l.watches +
          listAt callAt s.calls l.calls + Lost.all l.lost)) := by
      rw [ledgerAt, hzh]
      show instanceAt s.block + contextAt ctx ⟨ZKRB_GLOBAL_REQ⟩ + _ + _ + _ + _ + _ = _
      abel
    obtain ⟨event, q', arena, hcallback, hq', harena⟩ := Instance.callback_eq env junk hqueue
      (hevents q hqueue) (hm.of_eq hledger) (.state ZOO_SESSION_EVENT state path)
    have hopen' : l.isOpen = true := by
      rw [← hopen, hzh]
      rfl
    rw [if_pos hopen']
    refine ⟨_, hcallback, hopen, hs.returned, nofun, events ++ [event], harena.of_eq ?_, ?_, nofun⟩
    · have hkept : keptContext (frees ⟨ZKRB_GLOBAL_REQ⟩ (.state ZOO_SESSION_EVENT state path)) ctx
          ⟨ZKRB_GLOBAL_REQ⟩ = contextAt ctx ⟨ZKRB_GLOBAL_REQ⟩ := rfl
      simp only [ledgerAt, Ledger.callback, hzh, sessionAt, hkept]
      abel
    · rintro q ⟨⟩
      exact hq'

/-- Another watcher is called, which keeps its context if the event is about the session. -/
theorem watchEvent (hs : Owns s l) (hopen : s.zh.isSome) (i : ℕ) (type state : ℤ)
    (path : CString) :
    ∃ s', s.step h env junk (.watchEvent i type state path) = some s' ∧
      Owns s' (l.next h env [] (.watchEvent i type state path)) := by
  obtain ⟨q, hqueue⟩ := hs.exists_queue hopen
  obtain ⟨events, hm, hevents, -⟩ := hs.blocks
  obtain ⟨-, hlen, -, -⟩ := lengths_of_sat hm
  simp only [Instance.step, Ledger.next]
  by_cases hi : i < s.watches.length
  · have hi' : i < l.watches.length := hlen ▸ hi
    have hledger : ledgerAt s events l = contextAt s.watches[i] l.watches[i] +
        (listAt queuedAt events l.events + (sessionAt s.block s.zh +
          listAt contextAt s.completions l.completions +
          listAt contextAt (s.watches.eraseIdx i) (l.watches.eraseIdx i) +
          listAt callAt s.calls l.calls + Lost.all l.lost)) := by
      rw [ledgerAt, listAt_eraseIdx hlen hi hi']
      abel
    obtain ⟨event, q', arena, hcallback, hq', harena⟩ := Instance.callback_eq env junk hqueue
      (hevents q hqueue) (hm.of_eq hledger) (.state type state path)
    simp only [List.getElem?_eq_getElem hi, List.getElem?_eq_getElem hi', Option.bind_eq_bind,
      hcallback, Option.bind_some]
    by_cases htype : type = ZOO_SESSION_EVENT
    · have hkept : keptContext (frees l.watches[i] (.state type state path)) s.watches[i]
          l.watches[i] = contextAt s.watches[i] l.watches[i] :=
        if_neg (by simpa [frees] using htype)
      rw [if_pos htype, if_pos htype]
      refine ⟨_, rfl, hs.isOpen, hs.returned, nofun, events ++ [event], harena.of_eq ?_, ?_, nofun⟩
      · unfold ledgerAt Ledger.callback
        rw [hkept, listAt_eraseIdx hlen hi hi']
        abel
      · rintro q ⟨⟩
        exact hq'
    · have hfreed : keptContext (frees l.watches[i] (.state type state path)) s.watches[i]
          l.watches[i] = 0 := if_pos (by simpa [frees] using htype)
      rw [if_neg htype, if_neg htype]
      refine ⟨_, rfl, hs.isOpen, hs.returned, nofun, events ++ [event], harena.of_eq ?_, ?_, nofun⟩
      · unfold ledgerAt Ledger.callback
        rw [hfreed]
        abel
      · rintro q ⟨⟩
        exact hq'
  · simp only [List.getElem?_eq_none (Nat.le_of_not_lt hi),
      List.getElem?_eq_none (hlen ▸ Nat.le_of_not_lt hi)]
    exact ⟨s, rfl, hs⟩

/-- The C client drops a context of a completion function. -/
theorem dropCompletion (hs : Owns s l) (i : ℕ) :
    ∃ s', s.step h env junk (.dropCompletion i) = some s' ∧
      Owns s' (l.next h env [] (.dropCompletion i)) := by
  obtain ⟨events, hm, hevents, hnone⟩ := hs.blocks
  obtain ⟨hlen, -, -, -⟩ := lengths_of_sat hm
  simp only [Instance.step, Ledger.next]
  by_cases hi : i < s.completions.length
  · have hi' : i < l.completions.length := hlen ▸ hi
    simp only [List.getElem?_eq_getElem hi']
    refine ⟨_, rfl, hs.isOpen, hs.returned, hs.queue, events, ?_, hevents, hnone⟩
    have hledger : ledgerAt s events l = contextAt s.completions[i] l.completions[i] +
        (sessionAt s.block s.zh +
          listAt contextAt (s.completions.eraseIdx i) (l.completions.eraseIdx i) +
          listAt contextAt s.watches l.watches + listAt callAt s.calls l.calls +
          listAt queuedAt events l.events + Lost.all l.lost) := by
      rw [ledgerAt, listAt_eraseIdx hlen hi hi']
      abel
    exact sat_lost (hm.of_eq hledger)
  · have hnone' := Nat.le_of_not_lt hi
    simp only [List.eraseIdx_of_length_le hnone', List.getElem?_eq_none (hlen ▸ hnone')]
    exact ⟨s, rfl, hs⟩

/-- The C client drops a context of a watcher. -/
theorem dropWatch (hs : Owns s l) (i : ℕ) :
    ∃ s', s.step h env junk (.dropWatch i) = some s' ∧
      Owns s' (l.next h env [] (.dropWatch i)) := by
  obtain ⟨events, hm, hevents, hnone⟩ := hs.blocks
  obtain ⟨-, hlen, -, -⟩ := lengths_of_sat hm
  simp only [Instance.step, Ledger.next]
  by_cases hi : i < s.watches.length
  · have hi' : i < l.watches.length := hlen ▸ hi
    simp only [List.getElem?_eq_getElem hi']
    refine ⟨_, rfl, hs.isOpen, hs.returned, hs.queue, events, ?_, hevents, hnone⟩
    have hledger : ledgerAt s events l = contextAt s.watches[i] l.watches[i] +
        (sessionAt s.block s.zh + listAt contextAt s.completions l.completions +
          listAt contextAt (s.watches.eraseIdx i) (l.watches.eraseIdx i) +
          listAt callAt s.calls l.calls + listAt queuedAt events l.events + Lost.all l.lost) := by
      rw [ledgerAt, listAt_eraseIdx hlen hi hi']
      abel
    exact sat_lost (hm.of_eq hledger)
  · have hnone' := Nat.le_of_not_lt hi
    simp only [List.eraseIdx_of_length_le hnone', List.getElem?_eq_none (hlen ▸ hnone')]
    exact ⟨s, rfl, hs⟩

/-- A method goes on after its call. -/
theorem ret (hs : Owns s l) (i : ℕ) (reply : Reply) :
    ∃ s', s.step h env junk (.ret i reply) = some s' ∧
      Owns s' (l.next h env [] (.ret i reply)) := by
  obtain ⟨events, hm, hevents, hnone⟩ := hs.blocks
  obtain ⟨-, -, hlen, -⟩ := lengths_of_sat hm
  simp only [Instance.step, Ledger.next]
  by_cases hi : i < s.calls.length
  · have hi' : i < l.calls.length := hlen ▸ hi
    have hledger : ledgerAt s events l = callAt s.calls[i] l.calls[i] + (sessionAt s.block s.zh +
        listAt contextAt s.completions l.completions + listAt contextAt s.watches l.watches +
          listAt callAt (s.calls.eraseIdx i) (l.calls.eraseIdx i) +
          listAt queuedAt events l.events + Lost.all l.lost) := by
      rw [ledgerAt, listAt_eraseIdx hlen hi hi']
      abel
    obtain ⟨_, arena, hleave, harena⟩ :=
      (leaveCall_triple s.calls[i] l.calls[i] reply).run _ hm hledger
    simp only [List.getElem?_eq_getElem hi, List.getElem?_eq_getElem hi', Option.bind_eq_bind,
      hleave, Option.bind_some]
    refine ⟨_, rfl, hs.isOpen, hs.returned, hs.queue, events, harena.of_eq ?_, hevents, hnone⟩
    simp only [ledgerAt, Lost.all_append]
    abel
  · simp only [List.getElem?_eq_none (Nat.le_of_not_lt hi),
      List.getElem?_eq_none (hlen ▸ Nat.le_of_not_lt hi)]
    exact ⟨s, rfl, hs⟩

/-- A method begins, and raises an exception or makes its call. -/
theorem call (hs : Owns s l) {m : MethodCall} (hm : m.StringIds) :
    ∃ raised : List Lost, (∀ x ∈ raised, x.OfRaise) ∧
      ∃ s', s.step h env junk (.call m) = some s' ∧ Owns s' (l.next h env raised (.call m)) := by
  have hhandle : ({ h with isOpen := l.isOpen } : CHandle) = s.handle h := by
    rw [← hs.isOpen]
    rfl
  obtain ⟨events, hmem, hevents, hnone⟩ := hs.blocks
  obtain ⟨hlenc, hlenw, hlen, -⟩ := lengths_of_sat hmem
  obtain ⟨r, arena, hrun, harena⟩ :=
    (enter_ends (s.handle h) env m (m.defined_args _ env hm)).run _ hmem (zero_add _).symm
  simp only [Instance.step, Ledger.next, hhandle, Option.bind_eq_bind, hrun, Option.bind_some]
  cases hargs : m.args (s.handle h) env with
  | error e =>
    rw [hargs] at harena
    cases r with
    | ok frame =>
      obtain ⟨_, ⟨_, hempty, -⟩, -⟩ := harena
      cases hempty
    | error e' =>
      obtain ⟨_, ⟨_, hraised, own, hown, rfl⟩, hholds⟩ := harena
      obtain ⟨-, hraised⟩ := mem_fact_add.mp hraised
      obtain ⟨raised, hraised⟩ := Set.mem_iUnion.mp hraised
      obtain ⟨hofRaise, hraised⟩ := mem_fact_add.mp hraised
      refine ⟨raised, hofRaise, _, rfl, hs.isOpen, hs.returned, hs.queue, events, ?_, hevents,
        hnone⟩
      refine Arena.Sat.of_eq ⟨_, Set.add_mem_add hraised hown, hholds⟩ ?_
      simp only [ledgerAt, Lost.all_append]
      abel
  | ok args =>
    rw [hargs] at harena
    cases r with
    | error e =>
      obtain ⟨_, ⟨_, hempty, -⟩, -⟩ := harena
      cases hempty
    | ok frame =>
      refine ⟨[], nofun, _, rfl, hs.isOpen, hs.returned, hs.queue, events, ?_, hevents, hnone⟩
      refine harena.mono ((Set.add_subset_add_right (frameAt_subset m frame args)).trans ?_)
      simp only [ledgerAt, listAt_append hlenc, listAt_append hlenw, listAt_append hlen]
      refine Eq.subset ?_
      abel

/-- The first event is converted and freed. -/
theorem getNextEvent (hs : Owns s l) :
    ∃ s', s.step h env junk .getNextEvent = some s' ∧
      Owns s' (l.next h env [] .getNextEvent) := by
  obtain ⟨events, hm, hevents, hnone⟩ := hs.blocks
  obtain ⟨-, -, -, hlen⟩ := lengths_of_sat hm
  simp only [Instance.step, Instance.getNextEvent, Ledger.next]
  cases hzh : s.zh with
  | none =>
    have hclosed : l.isOpen = false := by
      rw [← hs.isOpen, hzh]
      rfl
    refine ⟨s, rfl, ?_⟩
    split
    · exact hs
    · rw [hclosed]
      exact hs
  | some ctx =>
    have hopen : l.isOpen = true := by
      rw [← hs.isOpen, hzh]
      rfl
    obtain ⟨q, hqueue⟩ := hs.exists_queue (by rw [hzh]; rfl)
    rw [hqueue]
    have hq := hevents q hqueue
    cases hle : l.events with
    | nil =>
      obtain rfl : events = [] := List.eq_nil_of_length_eq_zero (by rw [hlen, hle]; rfl)
      simp only [hq.dequeue_nil]
      exact ⟨s, rfl, hs⟩
    | cons inv rest =>
      cases events with
      | nil =>
        rw [hle] at hlen
        cases hlen
      | cons event events =>
        obtain ⟨q', hdequeue, hq'⟩ := hq.dequeue_cons
        have hledger : ledgerAt s (event :: events) l = queuedAt event inv +
            (sessionAt s.block s.zh + listAt contextAt s.completions l.completions +
              listAt contextAt s.watches l.watches + listAt callAt s.calls l.calls +
              listAt queuedAt events rest + Lost.all l.lost) := by
          rw [ledgerAt, hle, listAt_cons]
          abel
        obtain ⟨_, arena, hread, harena⟩ := (readEvent_triple env event inv).run _ hm hledger
        obtain ⟨_, ⟨_, hhash, own, hown, rfl⟩, hholds⟩ := harena
        obtain ⟨rfl, hevent⟩ := mem_fact_add.mp hhash
        obtain ⟨_, arena', hfree, harena'⟩ :=
          (freeEvent_triple event inv).run _ ⟨_, Set.add_mem_add hevent hown, hholds⟩ rfl
        simp only [hdequeue, Option.bind_eq_bind, Option.bind_some, hread, hfree]
        rw [if_pos hopen]
        refine ⟨_, rfl, hopen.symm, ?_, nofun, events, harena'.of_eq ?_, ?_, nofun⟩
        · simp only [hs.returned]
        · simp only [ledgerAt, Lost.all_append, hzh]
          abel
        · rintro _ ⟨⟩
          exact hq'

/-- The context of the session is freed. -/
theorem freeContext (hs : Owns s l) : ∃ s', s.freeContext = some s' ∧ s'.zh = none ∧
    Owns s' { l with isOpen := false } := by
  obtain ⟨events, hm, hevents, hnone⟩ := hs.blocks
  unfold Instance.freeContext
  cases hzh : s.zh with
  | none =>
    have hclosed : l.isOpen = false := by
      rw [← hs.isOpen, hzh]
      rfl
    refine ⟨s, rfl, hzh, ?_⟩
    rw [← hclosed]
    exact hs
  | some ctx =>
    have hledger : ledgerAt s events l = contextAt ctx ⟨ZKRB_GLOBAL_REQ⟩ + (instanceAt s.block +
        listAt contextAt s.completions l.completions + listAt contextAt s.watches l.watches +
          listAt callAt s.calls l.calls + listAt queuedAt events l.events +
          Lost.all l.lost) := by
      simp only [ledgerAt, hzh, sessionAt]
      abel
    obtain ⟨_, arena, hfree, harena⟩ := Triple.free.run _ hm hledger
    simp only [hfree, Option.bind_eq_bind, Option.bind_some]
    refine ⟨_, rfl, rfl, rfl, hs.returned, fun _ => rfl, events, harena.of_eq ?_, hevents, hnone⟩
    simp only [ledgerAt, sessionAt]
    abel

/-- The events in the queue are freed. -/
theorem queueFree (hs : Owns s l) (hzh : s.zh = none) :
    ∃ s', s.queueFree = some s' ∧ Owns s' l.destroy := by
  obtain ⟨events, hm, hevents, hnone⟩ := hs.blocks
  obtain ⟨-, -, -, hlen⟩ := lengths_of_sat hm
  have hclosed : s.zh.isSome = false := by
    rw [hzh]
    rfl
  unfold Instance.queueFree
  cases hqueue : s.queue with
  | none =>
    obtain rfl := hnone hqueue
    have hnil : l.events = [] := List.eq_nil_of_length_eq_zero hlen.symm
    refine ⟨s, rfl, hclosed, hs.returned, fun _ => hzh, [], hm.of_eq ?_, hevents, fun _ => rfl⟩
    simp only [ledgerAt, Ledger.destroy, hnil, List.flatMap_nil, List.append_nil]
  | some q =>
    have hq := hevents q hqueue
    have hledger : ledgerAt s events l = listAt queuedAt events l.events + (sessionAt s.block s.zh +
        listAt contextAt s.completions l.completions + listAt contextAt s.watches l.watches +
          listAt callAt s.calls l.calls + Lost.all l.lost) := by
      unfold ledgerAt
      abel
    obtain ⟨q', arena, hloop, hq', harena⟩ :=
      Instance.freeEvents_eq hq.lt_next hq (hm.of_eq hledger)
    obtain ⟨nodes, hnodes⟩ := hq'.freePtr_head
    simp only [hloop, hnodes, Option.bind_eq_bind, Option.bind_some]
    refine ⟨_, rfl, hclosed, hs.returned, fun _ => hzh, [], harena.of_eq ?_, nofun, fun _ => rfl⟩
    simp only [ledgerAt, Ledger.destroy, listAt_nil, Lost.all_append]
    abel

/-- `destroy_zkrb_instance`. -/
theorem destroy (hs : Owns s l) : ∃ s', s.destroy = some s' ∧ Owns s' l.destroy := by
  obtain ⟨s', hcontext, hzh, hs'⟩ := hs.freeContext
  obtain ⟨s'', hqueue, hs''⟩ := hs'.queueFree hzh
  refine ⟨s'', ?_, hs''⟩
  rw [Instance.destroy, hcontext]
  exact hqueue

end Owns

/-- What a step needs: the C client calls nobody back without a handle, completion functions are
called by completions, and the strings of an id are strings. -/
def Permitted (s : Instance) : MemoryAct → Prop
  | .call m => m.StringIds
  | .complete _ inv => s.zh.isSome ∧ inv.isCompletion
  | .watchEvent _ _ _ _ => s.zh.isSome
  | _ => True

/-- **A step** comes to no fault, and afterwards exactly the blocks of the next ledger are
allocated. -/
theorem owns_step (h : CHandle) (env : Allocators) (junk : ℕ → ZkrbEventLl ℕ ℕ) {s : Instance}
    {l : Ledger} (hs : Owns s l) {a : MemoryAct} (ha : Permitted s a) :
    ∃ raised : List Lost, (∀ x ∈ raised, x.OfRaise) ∧
      ∃ s', s.step h env junk a = some s' ∧ Owns s' (l.next h env raised a) := by
  cases a with
  | call m => exact hs.call h env junk ha
  | ret i reply => exact ⟨[], nofun, hs.ret h env junk i reply⟩
  | complete i inv => exact ⟨[], nofun, hs.complete h env junk ha.1 i inv⟩
  | sessionEvent state path => exact ⟨[], nofun, hs.sessionEvent h env junk state path⟩
  | watchEvent i type state path =>
    exact ⟨[], nofun, hs.watchEvent h env junk ha i type state path⟩
  | getNextEvent => exact ⟨[], nofun, hs.getNextEvent h env junk⟩
  | dropCompletion i => exact ⟨[], nofun, hs.dropCompletion h env junk i⟩
  | dropWatch i => exact ⟨[], nofun, hs.dropWatch h env junk i⟩
  | closeHandle =>
    refine ⟨[], nofun, ?_⟩
    simp only [Instance.step, Ledger.next, ← hs.isOpen]
    split
    · exact hs.destroy
    · exact ⟨s, rfl, hs⟩
  | finalize => exact ⟨[], nofun, hs.destroy⟩

end EventMemory

end Marshal

end ZookeeperClient
